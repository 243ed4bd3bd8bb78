/-
**Extraction.**

The texts that the links of a document cite are collected, each text once, together with a report on
every link that leads to another document.

Main definitions:

* `Citations.ContentBlock`, `Citations.collect` — a text under its content id, and the texts of a
  list under their ids;
* `Citations.Report` — what came of a link;
* `Citations.Extraction` — the reports on a list of links;
* `Citations.Extraction.blocks` — the texts that the reports refer to;
* `Citations.Extraction.statistics` — how much was saved by keeping each text once;
* `Citations.extract` — extracts what a list of links cites.

Main results:

* `Citations.nodup_collect` — no content id occurs twice;
* `Citations.mem_collect_ids` — every text is there under its content id.
-/

import Citations.Digest.Sha256
import Citations.Extraction.Finding
import Citations.Number.Binary64

set_option relaxedAutoImplicit false
set_option autoImplicit false

namespace Citations

/-! ### Collected texts -/

/-- A text under its content id. -/
structure ContentBlock where
  id : String
  content : String
  deriving DecidableEq

/-- The length of a text in characters. -/
def ContentBlock.length (b : ContentBlock) : Nat := b.content.length

/-- Adds a text, unless there is one with the same id. -/
def collectStep (blocks : List ContentBlock) (text : String) : List ContentBlock :=
  let id := contentId text
  if blocks.any (·.id = id) then blocks else blocks ++ [⟨id, text⟩]

/-- **The texts of a list, each once**, in the order in which they come first. -/
def collect (texts : List String) : List ContentBlock := texts.foldl collectStep []

theorem mem_collectStep_ids {blocks : List ContentBlock} {text id : String} :
    id ∈ (collectStep blocks text).map ContentBlock.id ↔
      id ∈ blocks.map ContentBlock.id ∨ id = contentId text := by
  unfold collectStep
  dsimp only
  split
  · rename_i h
    obtain ⟨b, hb, hid⟩ := List.any_eq_true.1 h
    have hmem : contentId text ∈ blocks.map ContentBlock.id :=
      List.mem_map.2 ⟨b, hb, by simpa using hid⟩
    constructor
    · exact Or.inl
    · rintro (h | rfl)
      · exact h
      · exact hmem
  · simp

theorem nodup_collectStep {blocks : List ContentBlock} (text : String)
    (h : (blocks.map ContentBlock.id).Nodup) :
    ((collectStep blocks text).map ContentBlock.id).Nodup := by
  unfold collectStep
  dsimp only
  split
  · exact h
  · rename_i hnew
    rw [List.map_append, List.nodup_append]
    refine ⟨h, by simp, ?_⟩
    intro a ha b hb hab
    obtain ⟨c, hc, rfl⟩ := List.mem_map.1 ha
    simp only [List.map_cons, List.map_nil, List.mem_singleton] at hb
    exact hnew (List.any_eq_true.2 ⟨c, hc, by simp [hab, hb]⟩)

theorem mem_foldl_collectStep_ids {id : String} :
    ∀ (texts : List String) (blocks : List ContentBlock),
      id ∈ (texts.foldl collectStep blocks).map ContentBlock.id ↔
        id ∈ blocks.map ContentBlock.id ∨ id ∈ texts.map contentId := by
  intro texts
  induction texts with
  | nil => intro blocks; simp
  | cons text texts ih =>
      intro blocks
      rw [List.foldl_cons, ih, mem_collectStep_ids, List.map_cons, List.mem_cons, or_assoc]

theorem nodup_foldl_collectStep :
    ∀ (texts : List String) (blocks : List ContentBlock),
      (blocks.map ContentBlock.id).Nodup →
        ((texts.foldl collectStep blocks).map ContentBlock.id).Nodup := by
  intro texts
  induction texts with
  | nil => intro blocks h; exact h
  | cons text texts ih => intro blocks h; exact ih _ (nodup_collectStep text h)

/-- Every text is there under its content id. -/
theorem mem_collect_ids {texts : List String} {id : String} :
    id ∈ (collect texts).map ContentBlock.id ↔ id ∈ texts.map contentId := by
  rw [collect, mem_foldl_collectStep_ids]
  simp

/-- No content id occurs twice. -/
theorem nodup_collect (texts : List String) :
    ((collect texts).map ContentBlock.id).Nodup :=
  nodup_foldl_collectStep texts [] (by simp)

/-! ### Reports -/

/-- What came of a link. -/
structure Report where
  link : Link
  finding : Finding
  deriving DecidableEq

/-- The content id of the text that was found. -/
def Report.contentId? (r : Report) : Option String := r.finding.text?.map contentId

/-- The reports on the links of a list that lead to another document, in order. -/
structure Extraction where
  reports : List Report
  deriving DecidableEq

namespace Extraction

/-- The texts that were found, one for each link that was followed with success. -/
def texts (e : Extraction) : List String := e.reports.filterMap (·.finding.text?)

/-- **The texts that were found, each once.** -/
def blocks (e : Extraction) : List ContentBlock := collect e.texts

/-- The number of characters in all blocks. -/
def totalLength (e : Extraction) : Nat := (e.blocks.map ContentBlock.length).foldr (· + ·) 0

/-- The number of characters in the block of an id. -/
def lengthOf (e : Extraction) (id : String) : Nat :=
  ((e.blocks.find? (·.id = id)).map ContentBlock.length).getD 0

/-- The number of characters that all links cite together, a block counting for each of its
links. -/
def citedLength (e : Extraction) : Nat :=
  (e.texts.map fun s => e.lengthOf (contentId s)).foldr (· + ·) 0

/-! ### Statistics -/

/-- How much was extracted, and how much was saved by keeping each text once. -/
structure Statistics where
  totalLinks : Nat
  uniqueContent : Nat
  duplicates : Int
  saved : Int
  ratio : Binary64
  deriving DecidableEq

/-- **How much was saved by keeping each text once.**  The ratio is that of what was saved to all
that is cited. -/
def statistics (e : Extraction) : Statistics where
  totalLinks := e.reports.length
  uniqueContent := e.blocks.length
  duplicates := e.texts.length - e.blocks.length
  saved := e.citedLength - e.totalLength
  ratio :=
    if e.citedLength = 0 then .finite false 0
    else .ofQuotient (e.citedLength - e.totalLength) e.citedLength

end Extraction

/-- **Extracts what a list of links cites.**  A link within its document gives no report. -/
def extract (rules : List Eligibility.Rule) (fullFiles : Bool) (links : List Link) :
    Inquiry Extraction := do
  let cited := links.filter fun l => l.scope = .crossDocument
  return ⟨← .each (fun l => do return ⟨l, ← l.finding rules fullFiles⟩) cited⟩

end Citations

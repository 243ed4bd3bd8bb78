/-
**The order of links.**

Following a link changes nothing for the other links: a document that was read for one of them is
read no more, and one that could not be read is tried again.  So what comes of each link is the same
in any order, and links that give no text can be left out; the blocks and the statistics depend on
the texts that are found alone.

Main definitions:

* `Citations.Extraction.Reorders` — two extractions that differ in order only;
* `Citations.Extraction.Drops` — two extractions that differ by a report that matters to no other.

Main results:

* `Citations.collect_perm` — the blocks of texts in any order;
* `Citations.Session.extract_perm` — **links may be extracted in any order**;
* `Citations.Session.extract_drops` — **a link that gives no text may be left out**.
-/

import Citations.Proofs.Extraction.Statistics
import Citations.Proofs.Session.Turns

set_option relaxedAutoImplicit false
set_option autoImplicit false

namespace Citations

open Eligibility (Rule)

/-! ### Blocks in any order -/

section Blocks

variable {texts texts' : List String} {blocks blocks' : List ContentBlock}

theorem nodup_collect_blocks (texts : List String) : (collect texts).Nodup :=
  (nodup_collect texts).of_map _

/-- The blocks are those of the texts, as long as no two texts have the same content id. -/
theorem mem_collect_iff (hids : ∀ x ∈ texts, ∀ y ∈ texts, contentId x = contentId y → x = y)
    {b : ContentBlock} : b ∈ collect texts ↔ ∃ text ∈ texts, b = ⟨contentId text, text⟩ := by
  constructor
  · exact mem_collect
  · rintro ⟨text, htext, rfl⟩
    exact mem_collect_of_mem hids htext

/-- **Texts in any order have the same blocks.** -/
theorem collect_perm (h : texts.Perm texts')
    (hids : ∀ x ∈ texts, ∀ y ∈ texts, contentId x = contentId y → x = y) :
    (collect texts).Perm (collect texts') := by
  have hids' : ∀ x ∈ texts', ∀ y ∈ texts', contentId x = contentId y → x = y :=
    fun x hx y hy => hids x (h.mem_iff.2 hx) y (h.mem_iff.2 hy)
  rw [List.perm_ext_iff_of_nodup (nodup_collect_blocks texts) (nodup_collect_blocks texts')]
  intro b
  rw [mem_collect_iff hids, mem_collect_iff hids']
  simp only [h.mem_iff]

/-- A block is found by its id, which no other block has. -/
theorem find?_id_eq_some_iff (hnodup : (blocks.map ContentBlock.id).Nodup) {id : String}
    {b : ContentBlock} : blocks.find? (·.id = id) = some b ↔ b ∈ blocks ∧ b.id = id := by
  constructor
  · intro h
    exact ⟨List.mem_of_find?_eq_some h, by simpa using List.find?_some h⟩
  · rintro ⟨hb, rfl⟩
    cases hc : blocks.find? (·.id = b.id) with
    | none => exact absurd (decide_eq_true rfl) (List.find?_eq_none.1 hc b hb)
    | some c =>
        have hid : c.id = b.id := by simpa using List.find?_some hc
        rw [List.inj_on_of_nodup_map hnodup (List.mem_of_find?_eq_some hc) hb hid]

/-- The block of an id is the same in any order. -/
theorem find?_id_perm (h : blocks.Perm blocks') (hnodup : (blocks.map ContentBlock.id).Nodup)
    (id : String) : blocks.find? (·.id = id) = blocks'.find? (·.id = id) := by
  have hnodup' : (blocks'.map ContentBlock.id).Nodup := (h.map _).nodup_iff.1 hnodup
  refine Option.ext fun b => ?_
  rw [find?_id_eq_some_iff hnodup, find?_id_eq_some_iff hnodup', h.mem_iff]

end Blocks

/-! ### Extractions that differ in order -/

namespace Extraction

variable {e e' : Extraction}

/-- **Two extractions that differ in order only.** -/
structure Reorders (e e' : Extraction) : Prop where
  reports : e.reports.Perm e'.reports
  /-- What came of a link is the same in both. -/
  finding : ∀ r ∈ e.reports, ∀ r' ∈ e'.reports, r.link = r'.link → r.finding = r'.finding
  blocks : e.blocks.Perm e'.blocks
  /-- A content id stands for the same block in both. -/
  block : ∀ id, e.blocks.find? (·.id = id) = e'.blocks.find? (·.id = id)
  statistics : e.statistics = e'.statistics
  totalLength : e.totalLength = e'.totalLength

/-- Extractions with the same reports in any order have the same blocks and statistics. -/
theorem reorders_of_perm (h : e.reports.Perm e'.reports)
    (hfinding : ∀ r ∈ e.reports, ∀ r' ∈ e'.reports, r.link = r'.link → r.finding = r'.finding)
    (hids : ∀ x ∈ e.texts, ∀ y ∈ e.texts, contentId x = contentId y → x = y) :
    e.Reorders e' := by
  have htexts : e.texts.Perm e'.texts := h.filterMap _
  have hblocks : e.blocks.Perm e'.blocks := collect_perm htexts hids
  have hfind := find?_id_perm hblocks (nodup_collect e.texts)
  have htotal : e.totalLength = e'.totalLength := by
    rw [totalLength_eq, totalLength_eq, (hblocks.map _).sum_eq]
  have hcited : e.citedLength = e'.citedLength := by
    have hweight : weightOf ContentBlock.length e.blocks =
        weightOf ContentBlock.length e'.blocks := funext fun id => by rw [weightOf, weightOf, hfind]
    rw [citedLength_eq, citedLength_eq, hweight, (htexts.map _).sum_eq]
  refine ⟨h, hfinding, hblocks, hfind, ?_, htotal⟩
  simp only [statistics, h.length_eq, htexts.length_eq, hblocks.length_eq, htotal, hcited]

/-! ### Extractions that differ by one report -/

/-- **Two extractions that differ by a report**, the one at `k`, that matters to no other. -/
structure Drops (e e' : Extraction) (k : ℕ) : Prop where
  /-- All other reports are as they were. -/
  reports : e'.reports = e.reports.eraseIdx k
  /-- The blocks are the same, in the same order. -/
  blocks : e'.blocks = e.blocks
  totalLength : e'.totalLength = e.totalLength
  unique : e'.statistics.uniqueContent = e.statistics.uniqueContent
  duplicates : e'.statistics.duplicates = e.statistics.duplicates
  saved : e'.statistics.saved = e.statistics.saved
  ratio : e'.statistics.ratio = e.statistics.ratio
  totalLinks : e.statistics.totalLinks = e'.statistics.totalLinks + 1

/-- A report without a text can be left out. -/
theorem drops_of_reports {before after : List Report} {r : Report}
    (h : e.reports = before ++ r :: after) (h' : e'.reports = before ++ after)
    (hr : r.finding.text? = none) : e.Drops e' before.length := by
  have htexts : e'.texts = e.texts := by
    rw [texts, texts, h, h', List.filterMap_append, List.filterMap_append,
      List.filterMap_cons_none (f := fun r : Report => r.finding.text?) hr]
  have hblocks : e'.blocks = e.blocks := by rw [blocks, blocks, htexts]
  have htotal : e'.totalLength = e.totalLength := by rw [totalLength, totalLength, hblocks]
  have hcited : e'.citedLength = e.citedLength := by
    rw [citedLength_eq, citedLength_eq, htexts, hblocks]
  refine ⟨?_, hblocks, htotal, ?_, ?_, ?_, ?_, ?_⟩
  · rw [h, h', List.eraseIdx_append_of_length_le (Nat.le_refl _), Nat.sub_self,
      List.eraseIdx_cons_zero]
  · simp only [statistics, hblocks]
  · simp only [statistics, hblocks, htexts]
  · simp only [statistics, hcited, htotal]
  · simp only [statistics, hcited, htotal]
  · simp only [statistics, h, h', List.length_append, List.length_cons]
    omega

end Extraction

/-! ### Extracting in another order -/

namespace Session

variable {s u v : Session} {t : FileTree} {rules : List Rule} {fullFiles : Bool}
  {links links' : List Link}

/-- What an extraction reports on a link, read off the session at first. -/
def reportOn (t : FileTree) (s : Session) (rules : List Rule) (fullFiles : Bool) (l : Link) :
    Report :=
  ⟨l, (s.run t (l.finding rules fullFiles)).2⟩

/-- While the files stay as they are, an extraction reports on each link what it would have reported
at first. -/
theorem LeadsTo.run_extract (h : s.LeadsTo t u) (hs : s.Sound) (rules : List Rule)
    (fullFiles : Bool) (links : List Link) :
    (u.run t (extract rules fullFiles links)).2.reports =
      (links.filter fun l => l.scope = .crossDocument).map (s.reportOn t rules fullFiles) := by
  rw [(h.sound hs).run_extract]
  refine List.map_congr_left fun l _ => ?_
  rw [reportOn, h.run_snd hs (l.asksDocuments_finding rules fullFiles)]

/-- **Links may be extracted in any order**, at any two times while the files stay as they are, as
long as no two texts that are found have the same content id: the reports come in the order of the
links, and are the same otherwise. -/
theorem extract_perm (hs : s.Reachable) (hu : s.LeadsTo t u) (hv : s.LeadsTo t v)
    (h : links.Perm links')
    (hids : ∀ x ∈ (u.run t (extract rules fullFiles links)).2.texts,
      ∀ y ∈ (u.run t (extract rules fullFiles links)).2.texts,
        contentId x = contentId y → x = y) :
    (v.run t (extract rules fullFiles links')).2.reports.map Report.link =
        links'.filter (fun l => l.scope = .crossDocument) ∧
      (u.run t (extract rules fullFiles links)).2.Reorders
        (v.run t (extract rules fullFiles links')).2 := by
  have hreports := hu.run_extract hs.sound rules fullFiles links
  have hreports' := hv.run_extract hs.sound rules fullFiles links'
  refine ⟨?_, Extraction.reorders_of_perm ?_ (fun r hr r' hr' hlink => ?_) hids⟩
  · rw [hreports', List.map_map]
    exact List.map_id _
  · rw [hreports, hreports']
    exact (h.filter _).map _
  · rw [hreports] at hr
    rw [hreports'] at hr'
    obtain ⟨l, -, rfl⟩ := List.mem_map.1 hr
    obtain ⟨l', -, rfl⟩ := List.mem_map.1 hr'
    have hsame : l = l' := hlink
    rw [hsame]

/-- The links of the shelf may be extracted backwards, also after they were extracted once. -/
theorem extract_perm_shelf :
    let e := (shelfSession.run shelf (extract Eligibility.defaultRules false shelfLinks)).2
    let later := (shelfSession.run shelf (extract Eligibility.defaultRules false shelfLinks)).1
    let e' := (later.run shelf (extract Eligibility.defaultRules false shelfLinks.reverse)).2
    e.texts = ["# One\nsame", "# One\nsame", "# Two\nother"] ∧
      e'.texts = ["# Two\nother", "# One\nsame", "# One\nsame"] ∧ e.Reorders e' := by
  have htexts :
      (shelfSession.run shelf (extract Eligibility.defaultRules false shelfLinks)).2.texts =
        ["# One\nsame", "# One\nsame", "# Two\nother"] := by decide +kernel
  have hne : contentId "# One\nsame" ≠ contentId "# Two\nother" := by decide +kernel
  have hs : shelfSession.Reachable := .start ..
  refine ⟨htexts, by decide +kernel,
    (extract_perm hs .refl (.run _ .refl) (List.reverse_perm _).symm ?_).2⟩
  rw [htexts]
  simp [hne, hne.symm]

/-- **A link that gives no text may be left out**, at any two times while the files stay as they
are: the report on it is missing then, and nothing else changes. -/
theorem extract_drops (hs : s.Reachable) (hu : s.LeadsTo t u) (hv : s.LeadsTo t v)
    {before after : List Link} {l : Link} (hl : l.scope = .crossDocument) {r : Report}
    (hr : (u.run t (extract rules fullFiles (before ++ l :: after))).2.reports[
      (before.filter fun l => l.scope = .crossDocument).length]? = some r)
    (hfailed : r.finding.status ≠ .success) :
    r.link = l ∧ (u.run t (extract rules fullFiles (before ++ l :: after))).2.Drops
      (v.run t (extract rules fullFiles (before ++ after))).2
      (before.filter fun l => l.scope = .crossDocument).length := by
  have hreports := hu.run_extract hs.sound rules fullFiles (before ++ l :: after)
  have hreports' := hv.run_extract hs.sound rules fullFiles (before ++ after)
  rw [List.filter_append, List.filter_cons_of_pos (by simpa using hl), List.map_append,
    List.map_cons] at hreports
  rw [List.filter_append, List.map_append] at hreports'
  have hown : s.reportOn t rules fullFiles l = r := by
    rw [hreports, List.getElem?_append_right (by simp)] at hr
    simpa using hr
  have htext : (s.reportOn t rules fullFiles l).finding.text? = none := by
    rw [hown, ← Option.not_isSome_iff_eq_none, r.finding.isSome_text?_iff]
    exact hfailed
  refine ⟨by rw [← hown]; rfl, ?_⟩
  have hdrops := Extraction.drops_of_reports hreports hreports' htext
  rwa [List.length_map] at hdrops

/-- The link to a document that is not on the shelf may be left out. -/
theorem extract_drops_shelf :
    let missing := shelfLink (some "c.md") (some "One") (some (.valid none))
    let e := (shelfSession.run shelf (extract Eligibility.defaultRules false
      (shelfLinks.take 3 ++ missing :: shelfLinks.drop 4))).2
    let e' := (shelfSession.run shelf (extract Eligibility.defaultRules false
      (shelfLinks.take 3 ++ shelfLinks.drop 4))).2
    shelfLinks.take 3 ++ missing :: shelfLinks.drop 4 = shelfLinks ∧
      e.reports[2]?.map (·.finding.status) = some .error ∧ e.Drops e' 2 := by
  intro missing e e'
  have hlinks : shelfLinks.take 3 ++ missing :: shelfLinks.drop 4 = shelfLinks := rfl
  have hstatus : e.reports[2]?.map (·.finding.status) = some .error := by decide +kernel
  have hs : shelfSession.Reachable := .start ..
  obtain ⟨r, hr, herror⟩ := Option.map_eq_some_iff.1 hstatus
  have hfailed : r.finding.status ≠ .success := by rw [herror]; decide
  exact ⟨hlinks, hstatus, (extract_drops hs .refl .refl rfl hr hfailed).2⟩

end Session

end Citations

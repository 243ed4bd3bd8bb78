/-
**The lines of the frontmatter.**

The frontmatter is found in the text, while it is taken away from the lines.  Where all lines end in
line feeds, alone or behind a carriage return, the two agree: the frontmatter is made up of whole
lines, and it has as many of them as line feeds.  Blanking them keeps every other line in its place.

Main definitions:

* `Citations.Text.endsInFeeds` — whether the lines of a text end in line feeds;
* `Citations.Text.FeedLines` — what lines such a text has.

Main results:

* `Citations.Text.feedLines_lines` — the lines of a text that ends them in line feeds;
* `Citations.lines_frontmatter` — **the frontmatter is made up of the first lines**;
* `Citations.Document.source_aligned` — **blanking the frontmatter keeps the lines in their
  places**.
-/

import Citations.Proofs.Document.Exclusion

set_option relaxedAutoImplicit false
set_option autoImplicit false

namespace Citations

namespace Text

/-! ### Lines that end in line feeds -/

/-- Whether the lines of a text end in line feeds: nothing else ends a line but a carriage return
with a line feed behind it. -/
def endsInFeeds : List Char → Bool
  | [] => true
  | '\r' :: '\n' :: cs => endsInFeeds cs
  | c :: cs => (c == '\n' || !isLineBreak c) && endsInFeeds cs

/-- A text in which nothing but line feeds ends lines. -/
theorem endsInFeeds_of_forall {cs : List Char} (h : ∀ c ∈ cs, isLineBreak c = true → c = '\n') :
    endsInFeeds cs = true := by
  fun_induction endsInFeeds cs with
  | case1 => rfl
  | case2 cs ih =>
      exact absurd (h '\r' (List.mem_cons_self ..) isLineBreak_carriageReturn) (by decide)
  | case3 c cs _ ih =>
      rw [ih fun c' hc' => h c' (List.mem_cons_of_mem _ hc'), Bool.and_true]
      by_cases hc : isLineBreak c = true
      · rw [h c (List.mem_cons_self ..) hc]
        rfl
      · rw [Bool.eq_false_iff.2 hc, Bool.not_false, Bool.or_true]

/-- Lines each of which holds one line feed, at its end; only the last one may lack it. -/
inductive FeedLines : List (List Char) → Prop
  | nil : FeedLines []
  | last {l : List Char} (hne : l ≠ []) (h : '\n' ∉ l) : FeedLines [l]
  | cons {l : List Char} {ls : List (List Char)} (h : '\n' ∉ l) (hls : FeedLines ls) :
      FeedLines ((l ++ ['\n']) :: ls)

theorem FeedLines.consLine {c : Char} {ls : List (List Char)} (hc : c ≠ '\n')
    (h : FeedLines ls) : FeedLines (consLine c ls) := by
  cases h with
  | nil => exact .last (by simp) (by simpa using hc.symm)
  | last hne h => exact .last (by simp) (by simp [hc.symm, h])
  | cons h hls => exact .cons (l := c :: _) (by simp [hc.symm, h]) hls

/-- **The lines of a text that ends them in line feeds.** -/
theorem feedLines_lines {cs : List Char} (h : endsInFeeds cs = true) : FeedLines (lines cs) := by
  fun_induction lines cs with
  | case1 => exact .nil
  | case2 cs ih => exact .cons (l := ['\r']) (by decide) (ih h)
  | case3 c cs hshape hc ih =>
      rw [endsInFeeds, hc, Bool.not_true, Bool.or_false, Bool.and_eq_true, beq_iff_eq] at h
      · obtain ⟨rfl, h⟩ := h
        exact .cons (l := []) List.not_mem_nil (ih h)
      · exact hshape
  | case4 c cs hshape hc ih =>
      rw [endsInFeeds, Bool.and_eq_true] at h
      · exact (ih h.2).consLine fun hfeed => hc (hfeed ▸ isLineBreak_lineFeed)
      · exact hshape

theorem FeedLines.of_cons {l : List Char} {ls : List (List Char)} (h : FeedLines (l :: ls)) :
    FeedLines ls := by
  cases h with
  | last => exact .nil
  | cons _ hls => exact hls

/-- Only the last line may end without a line feed. -/
theorem FeedLines.eq_nil_of_endsInLineFeed {front ls : List (List Char)} {l : List Char}
    (h : FeedLines (front ++ l :: ls)) (hl : endsInLineFeed l = false) : ls = [] := by
  induction front with
  | nil =>
      cases h with
      | last => rfl
      | cons => simp [endsInLineFeed] at hl
  | cons l' front ih =>
      rw [List.cons_append] at h
      generalize hrest : front ++ l :: ls = rest at h
      cases h with
      | last => simp at hrest
      | cons _ h => exact ih (hrest ▸ h)

/-- Where the first of such lines end in a line feed as a whole, each of them does. -/
theorem FeedLines.endsInLineFeed_of_mem {front back : List (List Char)}
    (h : FeedLines (front ++ back)) (hlast : ∀ c ∈ front.flatten.getLast?, c = '\n') :
    ∀ l ∈ front, endsInLineFeed l = true := by
  induction front with
  | nil => exact fun _ hl => nomatch hl
  | cons l front ih =>
      rw [List.cons_append] at h
      generalize hls : front ++ back = ls at h
      cases h with
      | last hne h =>
          obtain ⟨rfl, -⟩ := List.append_eq_nil_iff.1 hls
          rw [List.flatten_singleton, List.getLast?_eq_some_getLast hne] at hlast
          exact absurd (hlast _ rfl ▸ List.getLast_mem hne) h
      | cons h hrest =>
          intro l' hl'
          rcases List.mem_cons.1 hl' with rfl | hl'
          · simp [endsInLineFeed]
          · refine ih (hls ▸ hrest) (fun c hc => ?_) l' hl'
            exact hlast c (List.mem_getLast?_append_of_mem_getLast? hc)

end Text

open Text

/-! ### The frontmatter -/

/-- **The frontmatter is made up of the first lines**, as many as are counted. -/
theorem lines_frontmatter {cs : List Char} (h : endsInFeeds cs = true) :
    ∃ rest, lines cs = lines (frontmatter cs) ++ lines rest ∧ cs = frontmatter cs ++ rest ∧
      frontmatterLines cs = (lines (frontmatter cs)).length := by
  obtain ⟨rest, hcs, hlast⟩ := exists_frontmatter_append cs
  have hlines : lines cs = lines (frontmatter cs) ++ lines rest := by
    rw [← lines_append rest hlast, ← hcs]
  refine ⟨rest, hlines, hcs, ?_⟩
  rw [frontmatterLines, count_lineFeed, List.countP_eq_length]
  refine FeedLines.endsInLineFeed_of_mem (hlines ▸ feedLines_lines h) ?_
  rwa [flatten_lines]

theorem lines_replicate (n : Nat) : lines (List.replicate n '\n') = List.replicate n ['\n'] := by
  induction n with
  | zero => rfl
  | succ n ih =>
      rw [List.replicate_succ, List.replicate_succ, ← ih]
      rfl

namespace Document

/-- **Blanking the frontmatter keeps the lines in their places.**  The frontmatter is made up of the
first lines, as many as are counted.  The source of the block structure has as many line feeds as
the content; its first lines are blank, and all others are those of the document. -/
theorem source_aligned (dialect : Markdown.Dialect) (cwd path : String) {content : String}
    (h : endsInFeeds content.toList = true) :
    let d := parse dialect cwd path content
    let k := frontmatterLines content.toList
    frontmatter content.toList = (d.lines.take k).flatten ∧ k ≤ d.lines.length ∧
      d.blocks = Markdown.blocks dialect d.source ∧
      d.source.count '\n' = content.toList.count '\n' ∧
      Text.lines d.source = List.replicate k ['\n'] ++ d.lines.drop k := by
  intro d k
  obtain ⟨rest, hlines, hcontent, hcount⟩ := lines_frontmatter h
  have hparts : d.lines = Text.lines (frontmatter content.toList) ++ Text.lines rest := hlines
  have htake : d.lines.take k = Text.lines (frontmatter content.toList) := by
    rw [hparts, List.take_left' hcount.symm]
  have hdrop : d.lines.drop k = Text.lines rest := by
    rw [hparts, List.drop_left' hcount.symm]
  have hsource : d.source = List.replicate k '\n' ++ rest := by
    rw [source, body, show frontmatterLines d.content.toList = k from rfl, hdrop, flatten_lines]
  refine ⟨by rw [htake, flatten_lines], ?_, rfl, ?_, ?_⟩
  · rw [hparts, List.length_append, show k = _ from hcount]
    exact Nat.le_add_right ..
  · rw [hsource, List.count_append, List.count_replicate_self, hcontent, List.count_append]
    rfl
  · rw [hsource, lines_append rest, lines_replicate, hdrop]
    intro c hc
    exact List.eq_of_mem_replicate (List.mem_of_mem_getLast? hc)

/-- A document whose lines end in carriage returns and line feeds, the last one in neither. -/
def returned : Document :=
  parse .standard "/" "/returned.md" "---\r\nname: x\r\n---\r\n\r\n# A\r\ntext"

theorem source_aligned_returned :
    endsInFeeds returned.content.toList = true ∧
      frontmatterLines returned.content.toList = 4 ∧
      Text.lines returned.source =
        List.replicate 4 ['\n'] ++ ["# A\r\n".toList, "text".toList] := by
  have hfeeds : endsInFeeds returned.content.toList = true := by decide +kernel
  have hcount : frontmatterLines returned.content.toList = 4 := by decide +kernel
  obtain ⟨-, -, -, -, hlines⟩ := source_aligned .standard "/" "/returned.md" hfeeds
  refine ⟨hfeeds, hcount, hlines.trans ?_⟩
  decide +kernel

end Document

end Citations

/-
**Where the links of a document stand.**

The links of a document are found on one line after the other, and on each line from left to right.
What a link says about its place can be checked against the lines of the document: there stands what
it was read from, and neither code nor the frontmatter is there.

A line is read without the carriage returns and line feeds at its end.  They do not matter here: they
lie behind all links, and they neither open nor close a code span.

Main definitions:

* `Citations.Link.Before` — the order of the lines, and on a line that of the columns;
* `Citations.Document.Shows` — whether a document shows a link at the place that the link names.

Main results:

* `Citations.codeSpans_append` — the code spans of a line do not depend on its end;
* `Citations.Document.scanLines_pairwise` — what is found on the lines is ordered if it is ordered on
  each line and from line to line;
* `Citations.Document.links_faithful` — **links stand in order, and where they say**.
-/

import Citations.Document
import Citations.Proofs.Link.Overlap
import Citations.Proofs.Text.Lines
import Citations.Proofs.Text.Scan

set_option relaxedAutoImplicit false
set_option autoImplicit false

namespace Citations

open Text

/-! ### Code spans and the end of a line -/

namespace CodeSpan

variable {tail : List Char}

theorem ticks_append (htail : '`' ∉ tail) (cs : List Char) : ticks (cs ++ tail) = ticks cs := by
  have hnil : tail.takeWhile (· = '`') = [] := by
    cases tail with
    | nil => rfl
    | cons c tail =>
        refine List.takeWhile_cons_of_neg ?_
        rintro hc
        exact htail (List.mem_cons.2 (.inl (of_decide_eq_true hc).symm))
  rw [ticks, ticks, List.takeWhile_append]
  split
  · rename_i hall
    rw [hnil, List.append_nil, hall]
  · rfl

theorem ticks_le_length (cs : List Char) : ticks cs ≤ cs.length :=
  (List.takeWhile_prefix _).length_le

theorem closing_eq_none {n : Nat} (hn : 0 < n) (htail : '`' ∉ tail) (skip pos : Nat) :
    closing n skip pos tail = none := by
  induction tail generalizing skip pos with
  | nil => cases skip <;> rfl
  | cons c tail ih =>
      have hrest := ih fun h => htail (List.mem_cons_of_mem _ h)
      cases skip with
      | succ skip => exact hrest _ _
      | zero =>
          have hticks : ticks (c :: tail) = 0 := ticks_append htail []
          rw [closing, hticks, if_pos hn, hrest]

theorem closing_append {n : Nat} (hn : 0 < n) (htail : '`' ∉ tail) (cs : List Char)
    (skip pos : Nat) : closing n skip pos (cs ++ tail) = closing n skip pos cs := by
  induction cs generalizing skip pos with
  | nil =>
      rw [List.nil_append, closing_eq_none hn htail]
      cases skip <;> rfl
  | cons c cs ih =>
      cases skip with
      | succ skip => exact ih _ _
      | zero =>
          have hticks := ticks_append htail (c :: cs)
          rw [List.cons_append] at hticks
          simp only [List.cons_append, closing, hticks, ih]

theorem read_append (htail : '`' ∉ tail) (prev : Option Char) (c : Char) (cs : List Char) :
    read prev (c :: cs ++ tail) = read prev (c :: cs) := by
  by_cases hc : c = '`'
  · subst hc
    have hticks := ticks_append htail ('`' :: cs)
    have hle := ticks_le_length ('`' :: cs)
    have hpos : 0 < ticks ('`' :: cs) := Nat.succ_pos _
    have hdrop : ('`' :: cs ++ tail).drop (ticks ('`' :: cs)) =
        ('`' :: cs).drop (ticks ('`' :: cs)) ++ tail := by
      rw [List.drop_append_of_le_length hle]
    rw [List.cons_append] at hticks hdrop ⊢
    simp only [read, hticks, hdrop, closing_append hpos htail]
  · rw [List.cons_append]
    simp [read, hc]

end CodeSpan

/-- **The code spans of a line do not depend on an end without backticks.** -/
theorem codeSpans_append (line : List Char) {tail : List Char} (htail : '`' ∉ tail) :
    codeSpans (line ++ tail) = codeSpans line := by
  have hnone : ∀ c ∈ tail, Declines CodeSpan.read c := by
    intro c hc prev rest
    have hne : c ≠ '`' := fun h => htail (h ▸ hc)
    simp [CodeSpan.read, hne]
  rw [codeSpans, findAll, findFrom_append (CodeSpan.read_append htail) (findFrom_eq_nil hnone)]
  rfl

/-! ### The links of a line -/

/-- No citation starts inside a code span. -/
theorem inSpans_codeSpans_of_mem_citations {chars : List Char} {c : Citation}
    (h : c ∈ citations chars) : inSpans (codeSpans chars) c.start = false := by
  obtain ⟨r, -, more, hc⟩ :=
    Citation.exists_of_mem_collect ((List.mergeSort_perm _ _).mem_iff.1 h)
  have havoid := Citation.start_notMem_of_mem_ofKind hc
  rw [inSpans, List.any_append, Bool.or_eq_false_iff] at havoid
  exact havoid.1

namespace Link

variable {origin : Origin} {line : String} {l : Link}

/-- The order of the lines, and on a line that of the columns. -/
def Before (a b : Link) : Prop := a.line < b.line ∨ a.line = b.line ∧ a.column < b.column

theorem line_of_mem_ofLine (h : l ∈ ofLine origin line) : l.line = origin.line := by
  obtain ⟨c, -, markerStop, rfl⟩ := exists_of_mem_ofCitations h
  rfl

theorem ofLine_pairwise_column (origin : Origin) (line : String) :
    (ofLine origin line).Pairwise fun a b => a.column < b.column :=
  ofCitations_pairwise (citations_pairwise line.toList) fun _ _ _ _ hab _ _ => hab.start_lt

/-- A link of a line ends on the line, stands where it says, and does not start in code. -/
theorem shown_of_mem_ofLine (h : l ∈ ofLine origin line) :
    l.column < l.stop ∧ l.stop ≤ line.toList.length ∧
      slice line.toList l.column l.stop = l.fullMatch.toList ∧
      inSpans (codeSpans line.toList) l.column = false := by
  obtain ⟨c, hc, markerStop, rfl⟩ := exists_of_mem_ofCitations h
  have hbounds := bounds_of_mem_citations hc
  rw [stop_ofCitation origin hbounds markerStop]
  refine ⟨hbounds.1, hbounds.2, ?_, inSpans_codeSpans_of_mem_citations hc⟩
  exact (String.toList_ofList).symm

end Link

/-! ### The links of a document -/

namespace Document

variable {excluded : Nat → Bool}

/-- What is found on the lines is ordered if it is ordered on each line and from line to line. -/
theorem scanLines_pairwise {α : Type} {R : α → α → Prop} {read : Nat → List Char → List α}
    (hline : ∀ n l, (read n l).Pairwise R)
    (hnext : ∀ m n l l' x y, m < n → x ∈ read m l → y ∈ read n l' → R x y) (index : Nat)
    (ls : List (List Char)) : (scanLines excluded read index ls).Pairwise R := by
  induction ls generalizing index with
  | nil => exact .nil
  | cons l ls ih =>
      refine List.pairwise_append.2 ⟨?_, ih (index + 1), fun x hx y hy => ?_⟩
      · split
        · exact .nil
        · exact hline _ _
      · obtain ⟨i, l', hi, -, -, hy⟩ := exists_of_mem_scanLines hy
        split at hx
        · cases hx
        · exact hnext _ _ _ _ x y (by omega) hx hy

/-- Whether a document shows a link where the link says: on one of its lines that is neither code
nor frontmatter, where there is the text that the link was read from, outside of code spans. -/
structure Shows (d : Document) (l : Link) : Prop where
  line_pos : 1 ≤ l.line
  line_le : l.line ≤ d.lines.length
  notExcluded : isExcluded (frontmatterLines d.content.toList) d.blocks (l.line - 1) = false
  text : ∃ line, d.lines[l.line - 1]? = some line ∧
    slice line l.column l.stop = l.fullMatch.toList ∧ inSpans (codeSpans line) l.column = false

variable {dialect : Markdown.Dialect} {cwd path content : String}

theorem links_pairwise_before : (parse dialect cwd path content).links.Pairwise Link.Before := by
  refine scanLines_pairwise (fun n l => ?_) (fun m n l l' x y hlt hx hy => ?_) _ _
  · refine (Link.ofLine_pairwise_column _ _).imp_of_mem fun ha hb hab => .inr ⟨?_, hab⟩
    rw [Link.line_of_mem_ofLine ha, Link.line_of_mem_ofLine hb]
  · rw [Link.Before, Link.line_of_mem_ofLine hx, Link.line_of_mem_ofLine hy]
    exact .inl hlt

theorem shows_of_mem_links {l : Link} (h : l ∈ (parse dialect cwd path content).links) :
    (parse dialect cwd path content).Shows l := by
  obtain ⟨i, line, -, hline, hexcluded, hl⟩ := exists_of_mem_scanLines h
  rw [Nat.sub_zero] at hline
  have hnumber : l.line = i + 1 := Link.line_of_mem_ofLine hl
  have hindex : l.line - 1 = i := by omega
  have hlt := (List.getElem?_eq_some_iff.1 hline).1
  refine ⟨by omega, hnumber ▸ hlt, hindex ▸ hexcluded, line, hindex ▸ hline, ?_⟩
  -- the link was read from the line without its end, which makes no difference
  obtain ⟨-, hstop, htext, hcode⟩ := Link.shown_of_mem_ofLine hl
  rw [String.toList_ofList] at hstop htext hcode
  obtain ⟨e, happend, he⟩ := exists_chomp_append line
  have hticks : '`' ∉ e := fun h => absurd (he _ h) (by decide)
  rw [happend, slice_append _ _ hstop, codeSpans_append _ hticks]
  exact ⟨htext, hcode⟩

/-- **Links stand in order, and where they say.** -/
theorem links_faithful (dialect : Markdown.Dialect) (cwd path content : String) :
    (parse dialect cwd path content).links.Pairwise Link.Before ∧
      ∀ l ∈ (parse dialect cwd path content).links, (parse dialect cwd path content).Shows l :=
  ⟨links_pairwise_before, fun _ hl => shows_of_mem_links hl⟩

end Document

end Citations

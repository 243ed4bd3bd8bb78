/-
**What code and frontmatter exclude.**

Links and block anchors are looked for on the lines that belong neither to the frontmatter nor to
code.  Which lines those are is found out by counting in two other ways.  The frontmatter is as many
lines long as it holds line feeds, and the block structure ends a line at a carriage return or a line
feed only, while the lines of a document end at eight more characters.  So the exclusion is right
about a place as long as the lines before it end the way that the other two count, and otherwise it
is off by the lines that do not.

Main definitions:

* `Citations.Markdown.lineOf` — the line of a place, as the block structure counts lines;
* `Citations.Document.Place`, `Citations.Document.places` — where links and block anchors stand;
* `Citations.Document.InFrontmatter`, `Citations.Document.InCode` — what a place belongs to;
* `Citations.Document.linesBefore` — the lines that are counted in two ways.

Main results:

* `Citations.Markdown.count_normalizeSource_lines` — which lines the block structure counts;
* `Citations.Document.inFrontmatter_iff`, `Citations.Document.lineOf_eq` — what a place belongs to,
  told by its line;
* `Citations.Document.apart_of_mem_places` — **links and block anchors are neither in the frontmatter
  nor in code**, as far as lines end as expected;
* `Citations.Document.not_apart_of_mem_places` — they can be in code.
-/

import Citations.Proofs.Document.Position

set_option relaxedAutoImplicit false
set_option autoImplicit false

namespace Citations

open Text

/-! ### How the block structure counts lines -/

namespace Markdown

/-- The line of a source that a place is on, as the block structure counts lines: the number of line
feeds before the place, with a carriage return, alone or before a line feed, for one. -/
def lineOf (source : List Char) (place : Nat) : Nat :=
  (normalizeSource (source.take place)).count '\n'

theorem count_normalizeSource_cons {c : Char} {cs : List Char}
    (h : ∀ tail, c = '\r' → cs = '\n' :: tail → False) :
    (normalizeSource (c :: cs)).count '\n' =
      (normalizeSource cs).count '\n' + if isReturn c then 1 else 0 := by
  rw [normalizeSource, List.count_cons]
  · congr 1
    by_cases hreturn : c = '\r'
    · subst hreturn
      rfl
    · by_cases hnul : c = '\x00'
      · subst hnul
        rfl
      · rw [if_neg hreturn, if_neg hnul, isReturn, beq_false_of_ne hreturn, Bool.or_false]
  · exact h

theorem count_normalizeSource_of_plain {cs : List Char} (h : ∀ c ∈ cs, isReturn c = false) :
    (normalizeSource cs).count '\n' = 0 := by
  induction cs with
  | nil => rfl
  | cons c cs ih =>
      have hc := h c (List.mem_cons_self ..)
      rw [count_normalizeSource_cons, ih fun c' hc' => h c' (List.mem_cons_of_mem _ hc'), hc]
      · rfl
      · rintro tail rfl -
        exact absurd hc (by decide)

theorem count_normalizeSource_replicate (n : Nat) (cs : List Char) :
    (normalizeSource (List.replicate n '\n' ++ cs)).count '\n' =
      (normalizeSource cs).count '\n' + n := by
  induction n with
  | zero => rfl
  | succ n ih =>
      rw [List.replicate_succ, List.cons_append, count_normalizeSource_cons, ih]
      · rfl
      · rintro tail h
        cases h

/-- Lines with a start of the next one behind them begin with a line feed only if their text does. -/
theorem exists_eq_cons_of_flatten_take_lines {cs start tail : List Char} {n : Nat}
    (hstart : ∀ c ∈ start, isReturn c = false)
    (h : ((lines cs).take n).flatten ++ start = '\n' :: tail) : ∃ behind, cs = '\n' :: behind := by
  have hsplit : ((lines cs).take n).flatten ++ ((lines cs).drop n).flatten = cs := by
    rw [← List.flatten_append, List.take_append_drop, flatten_lines]
  cases hfront : ((lines cs).take n).flatten with
  | nil =>
      rw [hfront, List.nil_append] at h
      exact absurd (hstart '\n' (h ▸ List.mem_cons_self ..)) (by decide)
  | cons x front =>
      rw [hfront, List.cons_append] at h hsplit
      cases h
      exact ⟨_, hsplit.symm⟩

/-- **Among the lines of a text, the block structure counts those that end in a carriage return or a
line feed**; a start of the line behind them does not count. -/
theorem count_normalizeSource_lines (cs start : List Char) (n : Nat)
    (hstart : ∀ c ∈ start, isReturn c = false) :
    (normalizeSource (((lines cs).take n).flatten ++ start)).count '\n' =
      ((lines cs).take n).countP endsInReturn := by
  have hzero (ls : List (List Char)) :
      (normalizeSource ((ls.take 0).flatten ++ start)).count '\n' =
        (ls.take 0).countP endsInReturn := count_normalizeSource_of_plain hstart
  fun_induction lines cs generalizing n with
  | case1 => simpa using hzero []
  | case2 cs ih =>
      cases n with
      | zero => exact hzero _
      | succ n =>
          rw [List.take_succ_cons, List.countP_cons_of_pos (by decide), ← ih n]
          simp [normalizeSource]
  | case3 c cs hshape hc ih =>
      cases n with
      | zero => exact hzero _
      | succ n =>
          rw [List.take_succ_cons, List.flatten_cons, List.countP_cons, ← ih n,
            List.append_assoc, List.singleton_append, count_normalizeSource_cons]
          · rfl
          · -- a line feed behind the carriage return would end the same line
            rintro tail rfl htail
            obtain ⟨behind, hbehind⟩ := exists_eq_cons_of_flatten_take_lines hstart htail
            exact hshape behind rfl hbehind
  | case4 c cs hshape hc ih =>
      have hreturn : isReturn c = false := isReturn_of_not_isLineBreak hc
      have hplain : c ≠ '\r' := fun h => absurd (h ▸ hreturn) (by decide)
      cases n with
      | zero => exact hzero _
      | succ n =>
          have hrest := ih (n + 1)
          cases hlines : lines cs with
          | nil =>
              rw [consLine_nil, List.take_succ_cons, List.take_nil, List.flatten_singleton,
                List.singleton_append, count_normalizeSource_cons fun _ h => absurd h hplain,
                count_normalizeSource_of_plain hstart, hreturn]
              simp [endsInReturn, hreturn]
          | cons l ls =>
              have hmem : l ∈ lines cs := hlines ▸ List.mem_cons_self ..
              rw [hlines, List.take_succ_cons, List.flatten_cons, List.countP_cons,
                endsInReturn] at hrest
              rw [consLine_cons, List.take_succ_cons, List.flatten_cons, List.countP_cons,
                endsInReturn, getLast?_cons_of_mem_lines hmem, List.cons_append,
                List.cons_append, count_normalizeSource_cons fun _ h => absurd h hplain, hrest,
                hreturn]
              rfl

end Markdown

/-! ### The end of the frontmatter -/

namespace Frontmatter

theorem exists_of_mem_behindBreaks {cs r : List Char} (h : r ∈ behindBreaks cs) :
    ∃ front, cs = front ++ '\n' :: r := by
  induction cs with
  | nil => cases h
  | cons c cs ih =>
      simp only [behindBreaks] at h
      split at h
      · rcases List.mem_append.1 h with h | h
        · obtain ⟨front, rfl⟩ := ih h
          exact ⟨c :: front, rfl⟩
        · split at h
          · rename_i hc
            rw [List.mem_singleton] at h
            exact ⟨[], by rw [hc, h, List.nil_append]⟩
          · cases h
      · cases h

theorem exists_of_behindClosing {cs r : List Char} (h : behindClosing cs = some r) :
    ∃ front, cs = front ++ '\n' :: r := by
  induction cs with
  | nil => cases h
  | cons c cs ih =>
      have hrest (h : behindClosing cs = some r) : ∃ front, c :: cs = front ++ '\n' :: r := by
        obtain ⟨front, rfl⟩ := ih h
        exact ⟨c :: front, rfl⟩
      simp only [behindClosing] at h
      split at h
      · rcases Option.or_eq_some_iff.1 h with h | ⟨-, h⟩
        · obtain ⟨front, hfront⟩ := exists_of_mem_behindBreaks (List.mem_of_head? h)
          refine ⟨c :: (cs.take 3 ++ front), ?_⟩
          rw [List.cons_append, List.append_assoc, ← hfront, List.take_append_drop]
        · exact hrest h
      · exact hrest h

/-- The frontmatter ends in a line feed. -/
theorem exists_of_rest? {cs r : List Char} (h : rest? cs = some r) :
    ∃ front, cs = front ++ '\n' :: r := by
  unfold rest? at h
  split at h
  · obtain ⟨b, hb, hr⟩ := List.exists_of_findSome?_eq_some h
    obtain ⟨front, rfl⟩ := exists_of_behindClosing hr
    obtain ⟨before, hbefore⟩ := suffix_of_mem_behindBreaks hb
    refine ⟨cs.take 3 ++ (before ++ front), ?_⟩
    rw [List.append_assoc, List.append_assoc, hbefore, List.take_append_drop]
  · cases h

end Frontmatter

/-- The frontmatter is a start of the text that is empty or ends in a line feed. -/
theorem exists_frontmatter_append (cs : List Char) :
    ∃ rest, cs = frontmatter cs ++ rest ∧ ∀ c ∈ (frontmatter cs).getLast?, c = '\n' := by
  unfold frontmatter
  split
  · rename_i rest hrest
    obtain ⟨front, rfl⟩ := Frontmatter.exists_of_rest? hrest
    have htake : (front ++ '\n' :: rest).take ((front ++ '\n' :: rest).length - rest.length) =
        front ++ ['\n'] := by
      have happend : front ++ '\n' :: rest = (front ++ ['\n']) ++ rest := by simp
      rw [happend, List.length_append, Nat.add_sub_cancel, List.take_left]
    rw [htake]
    exact ⟨rest, by simp, by simp⟩
  · exact ⟨cs, rfl, by simp⟩

/-! ### Places -/

namespace Document

/-- A place of a document: lines count from one and columns from zero. -/
structure Place where
  line : Nat
  column : Nat
  deriving DecidableEq

def Place.ofLink (l : Link) : Place := ⟨l.line, l.column⟩

def Place.ofAnchor (a : Anchor) : Place := ⟨a.line, a.column⟩

/-- The places of the links and of the block anchors of a document. -/
def places (d : Document) : List Place :=
  d.links.map .ofLink ++ (d.anchors.filter fun a => a.kind = .block).map .ofAnchor

/-- The number of characters before a place. -/
def offset (d : Document) (p : Place) : Nat :=
  (d.lines.take (p.line - 1)).flatten.length + p.column

/-- Whether a place belongs to the frontmatter. -/
def InFrontmatter (d : Document) (p : Place) : Prop :=
  d.offset p < (frontmatter d.content.toList).length

/-- The source of the block structure of a document. -/
def source (d : Document) : List Char := body d.lines (frontmatterLines d.content.toList)

/-- Whether a place belongs to what the block structure takes for code.  What is behind the place is
the same in the source of the block structure as in the document. -/
def InCode (d : Document) (p : Place) : Prop :=
  Markdown.isCodeLine d.blocks
    (Markdown.lineOf d.source (d.source.length - (d.lines.flatten.length - d.offset p))) = true

/-- The lines before that of a place, but for the first ones that are taken for frontmatter. -/
def linesBefore (d : Document) (p : Place) : List (List Char) :=
  (d.lines.drop (frontmatterLines d.content.toList)).take
    (p.line - 1 - frontmatterLines d.content.toList)

/-! ### Where links and block anchors are found -/

theorem column_lt_of_mem_ofLine {number : Nat} {line : List Char} {a : Anchor}
    (h : a ∈ Anchor.ofLine number line) : a.column < line.length := by
  have hfound {α : Type} {read : Reader α} {m : Found α} (h : m ∈ findAll read line) :
      m.start < line.length := by
    have := start_lt_of_mem_findFrom h
    omega
  simp only [Anchor.ofLine, List.mem_append, List.mem_map, List.mem_filter] at h
  rcases h with (⟨m, hm, rfl⟩ | ⟨m, ⟨hm, -⟩, rfl⟩) | ⟨m, hm, rfl⟩
  · rw [Option.mem_toList, Anchor.trailing, Option.filter_eq_some_iff] at hm
    exact hfound (List.mem_of_head? hm.1)
  · rw [Anchor.inline, List.mem_filterMap] at hm
    obtain ⟨m', hm', hm⟩ := hm
    split at hm
    · cases hm
    · obtain ⟨b, -, hm⟩ := Option.bind_eq_some_iff.1 hm
      obtain ⟨name, -, rfl⟩ := Option.map_eq_some_iff.1 hm
      exact hfound hm'
  · exact hfound hm

variable {dialect : Markdown.Dialect} {cwd path content : String} {p : Place}

/-- Links and block anchors are found on lines that are not excluded, before the ends of those. -/
theorem exists_line_of_mem_places (h : p ∈ (parse dialect cwd path content).places) :
    ∃ i line, p.line = i + 1 ∧ (parse dialect cwd path content).lines[i]? = some line ∧
      isExcluded (frontmatterLines content.toList)
        (parse dialect cwd path content).blocks i = false ∧
      p.column < (chomp line).length := by
  rcases List.mem_append.1 h with h | h
  · obtain ⟨l, hl, rfl⟩ := List.mem_map.1 h
    obtain ⟨i, line, -, hline, hexcluded, hl⟩ := exists_of_mem_scanLines hl
    obtain ⟨hlt, hstop, -, -⟩ := Link.shown_of_mem_ofLine hl
    rw [String.toList_ofList] at hstop
    exact ⟨i, line, Link.line_of_mem_ofLine hl, hline, hexcluded, Nat.lt_of_lt_of_le hlt hstop⟩
  · obtain ⟨a, ha, rfl⟩ := List.mem_map.1 h
    obtain ⟨ha, hkind⟩ := List.mem_filter.1 ha
    rcases List.mem_append.1 ha with ha | ha
    · obtain ⟨i, line, -, hline, hexcluded, ha⟩ := exists_of_mem_scanLines ha
      exact ⟨i, line, Anchor.line_of_mem_ofLine ha, hline, hexcluded, column_lt_of_mem_ofLine ha⟩
    · obtain ⟨o, -, rfl⟩ := List.mem_map.1 ha
      simp at hkind

/-! ### Frontmatter -/

/-- A column of a line is within the first lines exactly if the line is one of them. -/
theorem length_flatten_take_add_lt_iff {first rest : List (List Char)} {i column : Nat}
    {line : List Char} (hline : (first ++ rest)[i]? = some line) (hcolumn : column < line.length) :
    ((first ++ rest).take i).flatten.length + column < first.flatten.length ↔ i < first.length := by
  induction first generalizing i with
  | nil => simp
  | cons l first ih =>
      cases i with
      | zero =>
          cases hline
          rw [List.take_zero, List.flatten_nil, List.flatten_cons, List.length_append,
            List.length_nil, List.length_cons]
          omega
      | succ i =>
          have hrest := ih hline
          simp only [List.cons_append, List.take_succ_cons, List.flatten_cons,
            List.length_append, List.length_cons]
          omega

/-- A place is in the frontmatter exactly if its line is one of those of the frontmatter. -/
theorem inFrontmatter_iff {i : Nat} {line : List Char} (hi : p.line = i + 1)
    (hline : (parse dialect cwd path content).lines[i]? = some line)
    (hcolumn : p.column < line.length) :
    (parse dialect cwd path content).InFrontmatter p ↔
      i < (Text.lines (frontmatter content.toList)).length := by
  obtain ⟨rest, hcontent, hlast⟩ := exists_frontmatter_append content.toList
  have hlines : (parse dialect cwd path content).lines =
      Text.lines (frontmatter content.toList) ++ Text.lines rest := by
    rw [← lines_append rest hlast, ← hcontent]
    rfl
  rw [hlines] at hline
  rw [← length_flatten_take_add_lt_iff hline hcolumn, flatten_lines, ← hlines, InFrontmatter,
    offset, hi]
  rfl

/-! ### Code -/

/-- The source of the block structure and the text, cut at the same place of a line. -/
theorem exists_body_eq_append {ls : List (List Char)} {blanked i column : Nat} {line : List Char}
    (hline : ls[i]? = some line) (hcolumn : column ≤ line.length) (hle : blanked ≤ i) :
    ∃ behind, ls.flatten.length = (ls.take i).flatten.length + column + behind.length ∧
      body ls blanked = (List.replicate blanked '\n' ++
        (((ls.drop blanked).take (i - blanked)).flatten ++ line.take column)) ++ behind := by
  obtain ⟨hlt, hget⟩ := List.getElem?_eq_some_iff.1 hline
  refine ⟨line.drop column ++ (ls.drop (i + 1)).flatten, ?_, ?_⟩
  · have hlength := congrArg (fun ls => (List.flatten ls).length) (List.take_append_drop i ls)
    rw [List.drop_eq_getElem_cons hlt, hget] at hlength
    simp only [List.flatten_append, List.flatten_cons, List.length_append] at hlength
    rw [List.length_append, List.length_drop]
    omega
  · have hdrop := List.take_append_drop (i - blanked) (ls.drop blanked)
    rw [List.drop_drop, Nat.add_sub_cancel' hle, List.drop_eq_getElem_cons hlt, hget] at hdrop
    have hflatten := congrArg List.flatten hdrop
    rw [List.flatten_append, List.flatten_cons] at hflatten
    rw [body, ← hflatten]
    simp only [List.append_assoc]
    rw [← List.append_assoc (line.take column), List.take_append_drop]

/-- **The block structure counts the lines before a place that end in a carriage return or a line
feed**, and those that are taken for frontmatter. -/
theorem lineOf_eq {i : Nat} {line : List Char} (hi : p.line = i + 1)
    (hline : (parse dialect cwd path content).lines[i]? = some line)
    (hcolumn : p.column < (chomp line).length) (hle : frontmatterLines content.toList ≤ i) :
    let d := parse dialect cwd path content
    Markdown.lineOf d.source (d.source.length - (d.lines.flatten.length - d.offset p)) =
      i - (d.linesBefore p).countP (!endsInReturn ·) := by
  intro d
  obtain ⟨e, happend, he⟩ := exists_chomp_append line
  have hlength := congrArg List.length happend
  rw [List.length_append] at hlength
  obtain ⟨behind, hlines, hsource⟩ := exists_body_eq_append hline (by omega : p.column ≤ _) hle
  have hoffset : d.lines.flatten.length - d.offset p = behind.length := by
    change d.lines.flatten.length = _ at hlines
    rw [hlines, offset, hi]
    exact Nat.add_sub_cancel_left ..
  have hbefore : d.linesBefore p = (d.lines.drop (frontmatterLines content.toList)).take
      (i - frontmatterLines content.toList) := by
    rw [linesBefore, hi]
    rfl
  change d.source = _ at hsource
  rw [hoffset, hsource, Markdown.lineOf, List.length_append, Nat.add_sub_cancel, List.take_left,
    Markdown.count_normalizeSource_replicate]
  have hstart : ∀ c ∈ line.take p.column, isReturn c = false := by
    intro c hc
    rw [happend, List.take_append_of_le_length (by omega)] at hc
    exact isReturn_of_mem_chomp (List.mem_of_getElem? hline) c (List.mem_of_mem_take hc)
  have hdrop : (parse dialect cwd path content).lines.drop (frontmatterLines content.toList) =
      Text.lines ((Text.lines content.toList).drop (frontmatterLines content.toList)).flatten :=
    (lines_flatten_drop ..).symm
  have hcount := List.length_eq_countP_add_countP endsInReturn (l := d.linesBefore p)
  have hall : (d.linesBefore p).length = i - frontmatterLines content.toList := by
    have hlt : i < d.lines.length := (List.getElem?_eq_some_iff.1 hline).1
    rw [hbefore, List.length_take, List.length_drop]
    omega
  simp only [decide_not, Bool.decide_eq_true] at hcount
  rw [hdrop, Markdown.count_normalizeSource_lines _ _ _ hstart, ← hdrop, ← hbefore]
  omega

/-! ### Links and block anchors -/

/-- **Links and block anchors are neither in the frontmatter nor in code**, as far as lines end the
way that the block structure expects: those of the frontmatter in a line feed, and those between the
frontmatter and the place in a carriage return or a line feed.  In general a place is in the
frontmatter exactly if its line is, and in code exactly if there is code as many lines further up as
lines before end otherwise. -/
theorem apart_of_mem_places (h : p ∈ (parse dialect cwd path content).places) :
    let d := parse dialect cwd path content
    let front := Text.lines (frontmatter content.toList)
    (d.InFrontmatter p ↔ p.line - 1 < front.length) ∧
      (d.InCode p ↔ Markdown.isCodeLine d.blocks
        (p.line - 1 - (d.linesBefore p).countP (!endsInReturn ·)) = true) ∧
      ((∀ l ∈ front, endsInLineFeed l = true) → ¬ d.InFrontmatter p) ∧
      ((∀ l ∈ d.linesBefore p, endsInReturn l = true) → ¬ d.InCode p) := by
  intro d front
  obtain ⟨i, line, hi, hline, hexcluded, hcolumn⟩ := exists_line_of_mem_places h
  have hindex : p.line - 1 = i := by omega
  rw [isExcluded, Bool.or_eq_false_iff, decide_eq_false_iff_not, Nat.not_lt] at hexcluded
  obtain ⟨e, happend, -⟩ := exists_chomp_append line
  have hlength := congrArg List.length happend
  rw [List.length_append] at hlength
  have hfront : d.InFrontmatter p ↔ p.line - 1 < front.length := by
    rw [hindex]
    exact inFrontmatter_iff hi hline (by omega)
  have hcode : d.InCode p ↔ Markdown.isCodeLine d.blocks
      (p.line - 1 - (d.linesBefore p).countP (!endsInReturn ·)) = true := by
    rw [hindex, InCode, lineOf_eq hi hline hcolumn hexcluded.1]
  refine ⟨hfront, hcode, fun hends => ?_, fun hends => ?_⟩
  · have hblanked : frontmatterLines content.toList = front.length := by
      rw [frontmatterLines, count_lineFeed, List.countP_eq_length]
      exact hends
    rw [hfront, hindex]
    omega
  · have hzero : (d.linesBefore p).countP (!endsInReturn ·) = 0 := by
      rw [List.countP_eq_zero]
      intro l hl
      rw [hends l hl]
      decide
    rw [hcode, hzero, Nat.sub_zero, hindex, hexcluded.2]
    exact Bool.false_ne_true

/-- A document with a link in its frontmatter, one in code, and one behind both. -/
def layered : Document :=
  parse .standard "/" "/layered.md" "---\nsee: [a](a.md)\n---\n\n    [b](b.md)\n\n[c](c.md)\n"

theorem apart_of_mem_places_layered :
    ⟨7, 0⟩ ∈ layered.places ∧ ¬ layered.InFrontmatter ⟨7, 0⟩ ∧ ¬ layered.InCode ⟨7, 0⟩ := by
  have hmem : (⟨7, 0⟩ : Place) ∈ layered.places := by decide +kernel
  obtain ⟨-, -, hfront, hcode⟩ := apart_of_mem_places hmem
  exact ⟨hmem, hfront (by decide +kernel), hcode (by decide +kernel)⟩

/-- **Links and block anchors can be in code**: here a line separator ends a line of the document,
but not one of the block structure. -/
theorem not_apart_of_mem_places :
    ¬ ∀ (dialect : Markdown.Dialect) (cwd path content : String) (p : Place),
      p ∈ (parse dialect cwd path content).places →
        ¬ (parse dialect cwd path content).InFrontmatter p ∧
          ¬ (parse dialect cwd path content).InCode p := by
  intro h
  have hmem : (⟨4, 4⟩ : Place) ∈
      (parse .standard "/" "/source.md" "a\u2028b\n\n    [x](a.md)\n").places := by
    decide +kernel
  refine (h _ _ _ _ _ hmem).2 ?_
  unfold InCode
  decide +kernel

end Document

end Citations

/-
**Where the frontmatter ends.**

A line of dashes opens the frontmatter and another one closes it, and white space may follow either.
As the white space behind the opening dashes may go on over line feeds, as many blank lines as there
are come before the inside of the frontmatter, and the line that closes it is looked for behind one
more line.  So the first line of dashes closes the frontmatter if a line with text comes before it.
With blank lines only it does so if no line of dashes follows, and with no line between it never
does. A line that ends without a line feed closes nothing.

Main definitions:

* `Citations.Frontmatter.isDelimiter`, `Citations.Frontmatter.isClosing` — lines of dashes;
* `Citations.Frontmatter.behindClosed` — the lines behind the first line that closes;
* `Citations.Frontmatter.behindInside` — the lines behind the frontmatter;
* `Citations.Frontmatter.ClosesFirst` — **whether the first line of dashes closes the frontmatter**;
* `Citations.Document.EndsFrontmatter` — with which line the frontmatter of a document ends.

Main results:

* `Citations.Frontmatter.rest?_flatten` — **the frontmatter, line by line**;
* `Citations.Frontmatter.behindInside_of_closesFirst`,
  `Citations.Frontmatter.behindInside_of_not_closesFirst` — what the first line of dashes does;
* `Citations.Document.endsFrontmatter_iff` — **where the frontmatter ends**;
* `Citations.Document.not_endsFrontmatter` — it may end later than with the first line of dashes.
-/

import Citations.Proofs.Document.Frontmatter
import Citations.Proofs.Markdown.Beginning

set_option relaxedAutoImplicit false
set_option autoImplicit false

namespace Citations

open Text

namespace Frontmatter

/-! ### Lines of dashes -/

/-- Whether a line is three dashes, with white space behind them at most. -/
def isDelimiter (l : List Char) : Bool := "---".toList.isPrefixOf l && allBlank (l.drop 3)

/-- Whether a line can close the frontmatter: it is one of dashes and ends in a line feed. -/
def isClosing (l : List Char) : Bool := isDelimiter l && endsInLineFeed l

/-- Whether a line is blank and ends in a line feed. -/
def isBlankLine (l : List Char) : Bool := allBlank l && endsInLineFeed l

theorem allBlank_append_lineFeed (l : List Char) : allBlank (l ++ ['\n']) = allBlank l := by
  have hfeed : isBlank '\n' = true := by decide
  simp [allBlank, hfeed]

theorem endsInLineFeed_append (l : List Char) : endsInLineFeed (l ++ ['\n']) = true := by
  simp [endsInLineFeed]

theorem endsInLineFeed_of_notMem {l : List Char} (h : '\n' ∉ l) : endsInLineFeed l = false := by
  rw [endsInLineFeed, beq_eq_false_iff_ne]
  exact fun hlast => h (List.mem_of_mem_getLast? hlast)

/-- A blank line is none of dashes. -/
theorem isDelimiter_of_isBlankLine {l : List Char} (h : isBlankLine l = true) :
    isDelimiter l = false := by
  rw [isBlankLine, Bool.and_eq_true, allBlank, List.all_eq_true] at h
  cases l with
  | nil => rfl
  | cons c l =>
      have hdash : isBlank '-' = false := by decide
      have hc : c ≠ '-' := fun hc => by
        rw [← hc, h.1 c (List.mem_cons_self ..)] at hdash
        cases hdash
      simp [isDelimiter, hc.symm]

/-- A line of dashes is not blank. -/
theorem isBlankLine_of_isDelimiter {l : List Char} (h : isDelimiter l = true) :
    isBlankLine l = false := by
  refine Bool.eq_false_iff.2 fun hblank => ?_
  rw [isDelimiter_of_isBlankLine hblank] at h
  cases h

theorem isDelimiter_of_isClosing {l : List Char} (h : isClosing l = true) : isDelimiter l = true :=
  (Bool.and_eq_true_iff.1 h).1

theorem isClosing_of_not_isDelimiter {l : List Char} (h : isDelimiter l = false) :
    isClosing l = false := by
  rw [isClosing, h, Bool.false_and]

/-- A line starts with three dashes, or no text that goes on with it does. -/
theorem exists_dashes_or (l : List Char) (h : '\n' ∉ l) :
    (∃ t, l = "---".toList ++ t) ∨
      ∀ cs, "---".toList.isPrefixOf (l ++ '\n' :: cs) = false := by
  match l with
  | [] => exact .inr fun cs => rfl
  | [a] => exact .inr fun cs => by simp [List.isPrefixOf]
  | [a, b] => exact .inr fun cs => by simp [List.isPrefixOf]
  | a :: b :: c :: t =>
      by_cases hdashes : a = '-' ∧ b = '-' ∧ c = '-'
      · obtain ⟨rfl, rfl, rfl⟩ := hdashes
        exact .inl ⟨t, rfl⟩
      · refine .inr fun cs => ?_
        simp
        grind

theorem isPrefixOf_dashes (cs : List Char) : "---".toList.isPrefixOf ("---".toList ++ cs) = true :=
  List.isPrefixOf_iff_prefix.2 (List.prefix_append ..)

theorem isClosing_dashes (t : List Char) :
    isClosing ("---".toList ++ t ++ ['\n']) = allBlank t := by
  rw [isClosing, endsInLineFeed_append, Bool.and_true, isDelimiter, List.append_assoc,
    isPrefixOf_dashes, Bool.true_and]
  exact allBlank_append_lineFeed t

/-- A line that can close the frontmatter is three dashes, white space and a line feed. -/
theorem exists_of_isClosing {ls : List (List Char)} {l : List Char} (h : FeedLines (l :: ls))
    (hl : isClosing l = true) :
    ∃ t, l = "---".toList ++ t ++ ['\n'] ∧ '\n' ∉ t ∧ allBlank t = true := by
  cases h with
  | last hne h =>
      rw [isClosing, endsInLineFeed_of_notMem h, Bool.and_false] at hl
      cases hl
  | @cons l _ h hls =>
      rcases exists_dashes_or l h with ⟨t, rfl⟩ | hnone
      · exact ⟨t, rfl, fun ht => h (List.mem_append_right _ ht), isClosing_dashes t ▸ hl⟩
      · rw [isClosing, isDelimiter, hnone [], Bool.false_and, Bool.false_and] at hl
        cases hl

/-! ### White space over several lines -/

theorem behindBreaks_of_notMem {cs : List Char} (h : '\n' ∉ cs) : behindBreaks cs = [] := by
  induction cs with
  | nil => rfl
  | cons c cs ih =>
      rw [behindBreaks, ih fun hc => h (List.mem_cons_of_mem _ hc),
        if_neg fun hc : c = '\n' => h (hc ▸ List.mem_cons_self ..)]
      simp

theorem behindBreaks_append {l : List Char} (h : '\n' ∉ l) (cs : List Char) :
    behindBreaks (l ++ '\n' :: cs) =
      if allBlank l then behindBreaks cs ++ [cs] else [] := by
  induction l with
  | nil =>
      have hfeed : isBlank '\n' = true := by decide
      rw [List.nil_append, behindBreaks, if_pos hfeed, if_pos rfl]
      rfl
  | cons c l ih =>
      have hc : ¬ c = '\n' := fun hc => h (hc ▸ List.mem_cons_self ..)
      rw [List.cons_append, behindBreaks, if_neg hc, List.append_nil,
        ih fun hc => h (List.mem_cons_of_mem _ hc)]
      by_cases hblank : isBlank c = true <;> simp [allBlank, hblank]

/-- The lines behind each blank line that lines start with, the last one first. -/
def behindBlanks : List (List Char) → List (List (List Char))
  | [] => []
  | l :: ls => if isBlankLine l then behindBlanks ls ++ [ls] else []

theorem behindBreaks_flatten {ls : List (List Char)} (h : FeedLines ls) :
    behindBreaks ls.flatten = (behindBlanks ls).map List.flatten := by
  induction h with
  | nil => rfl
  | last hne h =>
      rw [List.flatten_singleton, behindBreaks_of_notMem h, behindBlanks, isBlankLine,
        endsInLineFeed_of_notMem h, Bool.and_false]
      rfl
  | cons h hls ih =>
      rw [List.flatten_cons, List.append_assoc, List.singleton_append, behindBreaks_append h, ih,
        behindBlanks, isBlankLine, allBlank_append_lineFeed, endsInLineFeed_append, Bool.and_true]
      split <;> simp

/-- As much white space as there is leaves the first line that is not blank. -/
theorem head?_behindBlanks (ls : List (List Char)) :
    (behindBlanks ls ++ [ls]).head? = some (ls.dropWhile isBlankLine) := by
  induction ls with
  | nil => rfl
  | cons l ls ih =>
      rw [behindBlanks, List.dropWhile_cons]
      split
      · rw [List.head?_append, ih, Option.some_or]
      · rfl

/-! ### The line that closes -/

/-- The lines behind the first line that can close the frontmatter and the blank ones below it. -/
def behindClosed : List (List Char) → Option (List (List Char))
  | [] => none
  | l :: ls => if isClosing l then some (ls.dropWhile isBlankLine) else behindClosed ls

theorem behindClosing_append {l : List Char} (h : '\n' ∉ l) (cs : List Char) :
    behindClosing (l ++ cs) = behindClosing cs := by
  induction l with
  | nil => rfl
  | cons c l ih =>
      rw [List.cons_append, behindClosing,
        if_neg (not_and_of_not_left _ fun hc : c = '\n' => h (hc ▸ List.mem_cons_self ..))]
      exact ih fun hc => h (List.mem_cons_of_mem _ hc)

theorem behindClosing_of_notMem {l : List Char} (h : '\n' ∉ l) : behindClosing l = none := by
  rw [← List.append_nil l, behindClosing_append h, behindClosing]

/-- Behind a line that starts with three dashes, the frontmatter is closed if the rest of the line
is blank, and otherwise may be closed later. -/
theorem behindClosing_dashes {t : List Char} (h : '\n' ∉ t) {ls : List (List Char)}
    (hls : FeedLines ls) :
    behindClosing ('\n' :: ("---".toList ++ t ++ '\n' :: ls.flatten)) =
      (if allBlank t then some (ls.dropWhile isBlankLine).flatten else none).or
        (behindClosing ('\n' :: ls.flatten)) := by
  have hline : '\n' ∉ "---".toList ++ t := fun hc => h (by simpa using hc)
  have hdrop : ("---".toList ++ t ++ '\n' :: ls.flatten).drop 3 = t ++ '\n' :: ls.flatten := rfl
  have hhead : ((behindBlanks ls).map List.flatten ++ [ls.flatten]).head? =
      some (ls.dropWhile isBlankLine).flatten := by
    rw [← List.map_singleton, ← List.map_append, List.head?_map, head?_behindBlanks]
    rfl
  rw [behindClosing, if_pos ⟨rfl, by rw [List.append_assoc, isPrefixOf_dashes]⟩, hdrop,
    behindBreaks_append h, behindBreaks_flatten hls, behindClosing_append hline]
  split
  · rw [hhead]
  · rfl

/-- **Behind a line feed, the first line that can close the frontmatter does.** -/
theorem behindClosing_lineFeed {ls : List (List Char)} (h : FeedLines ls) :
    behindClosing ('\n' :: ls.flatten) = (behindClosed ls).map List.flatten := by
  induction h with
  | nil => rfl
  | @last l hne h =>
      have hdrop : '\n' ∉ l.drop 3 := fun hc => h (List.mem_of_mem_drop hc)
      rw [List.flatten_singleton, behindClosing, behindBreaks_of_notMem hdrop,
        behindClosing_of_notMem h, behindClosed, isClosing, endsInLineFeed_of_notMem h]
      simp [behindClosed]
  | @cons l ls h hls ih =>
      rw [List.flatten_cons, List.append_assoc, List.singleton_append, behindClosed]
      rcases exists_dashes_or l h with ⟨t, rfl⟩ | hnone
      · have ht : '\n' ∉ t := fun hc => h (List.mem_append_right _ hc)
        rw [behindClosing_dashes ht hls, isClosing_dashes, ih]
        split <;> rfl
      · have hopen : isClosing (l ++ ['\n']) = false := by
          rw [isClosing, isDelimiter, hnone [], Bool.false_and, Bool.false_and]
        rw [behindClosing, hnone, hopen, if_neg (by simp), behindClosing_append h, ih]
        rfl

/-- The closing line is looked for behind the first line. -/
theorem behindClosing_flatten {ls : List (List Char)} (h : FeedLines ls) :
    behindClosing ls.flatten = (behindClosed ls.tail).map List.flatten := by
  cases h with
  | nil => rfl
  | last hne h =>
      rw [List.flatten_singleton, behindClosing_of_notMem h]
      rfl
  | cons h hls =>
      rw [List.flatten_cons, List.append_assoc, List.singleton_append, behindClosing_append h,
        behindClosing_lineFeed hls, List.tail_cons]

theorem behindClosed_append {front : List (List Char)} (h : ∀ l ∈ front, isClosing l = false)
    (ls : List (List Char)) : behindClosed (front ++ ls) = behindClosed ls := by
  induction front with
  | nil => rfl
  | cons l front ih =>
      rw [List.cons_append, behindClosed, h l (List.mem_cons_self ..)]
      exact ih fun l' hl' => h l' (List.mem_cons_of_mem _ hl')

theorem behindClosed_of_forall {ls : List (List Char)} (h : ∀ l ∈ ls, isClosing l = false) :
    behindClosed ls = none := by
  rw [← List.append_nil ls, behindClosed_append h, behindClosed]

theorem behindClosed_cons_of_isClosing {l : List Char} (h : isClosing l = true)
    (ls : List (List Char)) : behindClosed (l :: ls) = some (ls.dropWhile isBlankLine) := by
  rw [behindClosed, if_pos h]

/-- Lines hold none that can close the frontmatter, or there is a first one of those. -/
theorem forall_or_exists_isClosing (ls : List (List Char)) :
    (∀ l ∈ ls, isClosing l = false) ∨
      ∃ before last behind, ls = before ++ last :: behind ∧
        (∀ l ∈ before, isClosing l = false) ∧ isClosing last = true := by
  cases hfind : ls.find? isClosing with
  | none => exact .inl fun l hl => Bool.eq_false_iff.2 (List.find?_eq_none.1 hfind l hl)
  | some last =>
      obtain ⟨hlast, before, behind, hls, hbefore⟩ := List.find?_eq_some_iff_append.1 hfind
      exact .inr ⟨before, last, behind, hls, fun l hl => by simpa using hbefore l hl, hlast⟩

/-! ### The inside of the frontmatter -/

/-- The lines behind the frontmatter, out of those behind the line that opens it.  All blank lines
belong to the opening, and one more line comes before that which closes; if none of those closes,
the opening leaves one of the blank lines. -/
def behindInside (ls : List (List Char)) : Option (List (List Char)) :=
  (behindClosed (ls.dropWhile isBlankLine).tail).or
    (if ls.head?.any isBlankLine then behindClosed ls else none)

theorem behindInside_cons_of_isBlankLine {l : List Char} (h : isBlankLine l = true)
    (ls : List (List Char)) : behindInside (l :: ls) = (behindInside ls).or (behindClosed ls) := by
  rw [behindInside, behindInside, List.dropWhile_cons, if_pos h, List.head?_cons, Option.any_some,
    if_pos h, behindClosed, isClosing_of_not_isDelimiter (isDelimiter_of_isBlankLine h)]
  cases behindClosed (ls.dropWhile isBlankLine).tail <;> cases ls.head?.any isBlankLine <;>
    cases behindClosed ls <;> rfl

theorem behindInside_cons_of_not_isBlankLine {l : List Char} (h : isBlankLine l = false)
    (ls : List (List Char)) : behindInside (l :: ls) = behindClosed ls := by
  rw [behindInside, List.dropWhile_cons, h, List.head?_cons, Option.any_some, h]
  exact Option.or_none

theorem behindInside_of_forall {ls : List (List Char)} (h : ∀ l ∈ ls, isClosing l = false) :
    behindInside ls = none := by
  have htail : ∀ l ∈ (ls.dropWhile isBlankLine).tail, isClosing l = false := fun l hl =>
    h l ((List.dropWhile_sublist _).subset (List.mem_of_mem_tail hl))
  rw [behindInside, behindClosed_of_forall htail, behindClosed_of_forall h]
  split <;> rfl

theorem findSome?_behindClosing {ls : List (List Char)} (h : FeedLines ls) :
    ((behindBlanks ls ++ [ls]).map List.flatten).findSome? behindClosing =
      (behindInside ls).map List.flatten := by
  have hopen {l : List Char} {ls : List (List Char)} (h : FeedLines (l :: ls))
      (hblank : isBlankLine l = false) :
      ((behindBlanks (l :: ls) ++ [l :: ls]).map List.flatten).findSome? behindClosing =
        (behindInside (l :: ls)).map List.flatten := by
    rw [behindInside_cons_of_not_isBlankLine hblank, behindBlanks, hblank]
    simpa using behindClosing_flatten h
  induction h with
  | nil => rfl
  | last hne h =>
      refine hopen (.last hne h) ?_
      rw [isBlankLine, endsInLineFeed_of_notMem h, Bool.and_false]
  | @cons l ls h hls ih =>
      by_cases hblank : isBlankLine (l ++ ['\n']) = true
      · rw [behindInside_cons_of_isBlankLine hblank, behindBlanks, if_pos hblank,
          List.map_append, List.findSome?_append, ih, List.map_singleton, List.findSome?_singleton,
          behindClosing_flatten (.cons h hls), List.tail_cons, Option.map_or]
      · exact hopen (.cons h hls) (Bool.eq_false_iff.2 hblank)

/-- **The frontmatter, line by line.** -/
theorem rest?_flatten {first : List Char} {ls : List (List Char)} (h : FeedLines (first :: ls))
    (hfirst : isClosing first = true) :
    rest? (first :: ls).flatten = (behindInside ls).map List.flatten := by
  obtain ⟨t, rfl, ht, hblank⟩ := exists_of_isClosing h hfirst
  have hls : FeedLines ls := h.of_cons
  have hdrop : ("---".toList ++ (t ++ '\n' :: ls.flatten)).drop 3 = t ++ '\n' :: ls.flatten := rfl
  rw [List.flatten_cons, List.append_assoc, List.append_assoc, List.singleton_append, rest?,
    if_pos (isPrefixOf_dashes _), hdrop, behindBreaks_append ht, if_pos hblank,
    behindBreaks_flatten hls, ← findSome?_behindClosing hls, List.map_append, List.map_singleton]

/-! ### The first line of dashes -/

/-- **Whether the first line of dashes behind the one that opens the frontmatter closes it.**  It
ends in a line feed, and a line with text comes before it, or there are blank lines before it and no
later line can close the frontmatter. -/
def ClosesFirst (between : List (List Char)) (closing : List Char) (after : List (List Char)) :
    Prop :=
  endsInLineFeed closing = true ∧
    ((∃ l ∈ between, isBlankLine l = false) ∨
      between ≠ [] ∧ ∀ l ∈ after, isClosing l = false)

instance (between : List (List Char)) (closing : List Char) (after : List (List Char)) :
    Decidable (ClosesFirst between closing after) := inferInstanceAs (Decidable (_ ∧ _))

section

variable {between after : List (List Char)} {closing : List Char}

/-- Blank lines leave it to the line behind them whether it closes the frontmatter. -/
theorem behindInside_of_forall_isBlankLine (hne : between ≠ [])
    (hblank : ∀ l ∈ between, isBlankLine l = true) (hclosing : isClosing closing = true) :
    behindInside (between ++ closing :: after) =
      (behindClosed after).or (some (after.dropWhile isBlankLine)) := by
  have hopen : ∀ l ∈ between, isClosing l = false := fun l hl =>
    isClosing_of_not_isDelimiter (isDelimiter_of_isBlankLine (hblank l hl))
  have hhead : (between ++ closing :: after).head?.any isBlankLine = true := by
    obtain ⟨l, between, rfl⟩ := List.exists_cons_of_ne_nil hne
    exact hblank l (List.mem_cons_self ..)
  have hdash : isBlankLine closing = false :=
    isBlankLine_of_isDelimiter (isDelimiter_of_isClosing hclosing)
  rw [behindInside, if_pos hhead, behindClosed_append hopen,
    behindClosed_cons_of_isClosing hclosing, List.dropWhile_append_of_pos hblank,
    List.dropWhile_cons, hdash]
  rfl

/-- Behind a line with text, the first line of dashes closes the frontmatter. -/
theorem behindInside_of_exists (hopen : ∀ l ∈ between, isClosing l = false)
    (htext : ∃ l ∈ between, isBlankLine l = false) (hclosing : isClosing closing = true) :
    behindInside (between ++ closing :: after) = some (after.dropWhile isBlankLine) := by
  induction between with
  | nil => exact absurd htext (by simp)
  | cons l between ih =>
      obtain ⟨-, hopen⟩ := List.forall_mem_cons.1 hopen
      rw [List.cons_append]
      by_cases hblank : isBlankLine l = true
      · have htext : ∃ l ∈ between, isBlankLine l = false := by
          obtain ⟨l', hl', htext⟩ := htext
          rcases List.mem_cons.1 hl' with rfl | hl'
          · rw [hblank] at htext
            cases htext
          · exact ⟨l', hl', htext⟩
        rw [behindInside_cons_of_isBlankLine hblank, ih hopen htext, Option.some_or]
      · rw [behindInside_cons_of_not_isBlankLine (Bool.eq_false_iff.2 hblank),
          behindClosed_append hopen, behindClosed_cons_of_isClosing hclosing]

variable (hopen : ∀ l ∈ between, isDelimiter l = false) (hclosing : isDelimiter closing = true)

include hopen hclosing

theorem behindInside_of_closesFirst (h : ClosesFirst between closing after) :
    behindInside (between ++ closing :: after) = some (after.dropWhile isBlankLine) := by
  obtain ⟨hfeed, hcase⟩ := h
  have hcloses : isClosing closing = true := by rw [isClosing, hclosing, hfeed, Bool.true_and]
  by_cases htext : ∃ l ∈ between, isBlankLine l = false
  · exact behindInside_of_exists (fun l hl => isClosing_of_not_isDelimiter (hopen l hl)) htext
      hcloses
  · obtain ⟨hne, hafter⟩ := hcase.resolve_left htext
    rw [behindInside_of_forall_isBlankLine hne (by simpa using htext) hcloses,
      behindClosed_of_forall hafter, Option.none_or]

/-- If the first line of dashes does not close the frontmatter, it is a line of the frontmatter like
others, or there is no frontmatter. -/
theorem behindInside_of_not_closesFirst (hlines : FeedLines (between ++ closing :: after))
    (h : ¬ ClosesFirst between closing after) :
    behindInside (between ++ closing :: after) = behindClosed after := by
  have hopen' : ∀ l ∈ between, isClosing l = false := fun l hl =>
    isClosing_of_not_isDelimiter (hopen l hl)
  by_cases hfeed : endsInLineFeed closing = true
  · have hcloses : isClosing closing = true := by rw [isClosing, hclosing, hfeed, Bool.true_and]
    have hdash : isBlankLine closing = false := isBlankLine_of_isDelimiter hclosing
    obtain ⟨htext, hafter⟩ := not_or.1 fun hcase => h ⟨hfeed, hcase⟩
    by_cases hne : between = []
    · rw [hne, List.nil_append, behindInside_cons_of_not_isBlankLine hdash]
    · obtain ⟨before, last, behind, rfl, hbefore, hlast⟩ :=
        (forall_or_exists_isClosing after).resolve_left fun hnone => hafter ⟨hne, hnone⟩
      rw [behindInside_of_forall_isBlankLine hne (by simpa using htext) hcloses,
        behindClosed_append hbefore, behindClosed_cons_of_isClosing hlast, Option.some_or]
  · rw [Bool.not_eq_true] at hfeed
    obtain rfl := hlines.eq_nil_of_endsInLineFeed hfeed
    refine behindInside_of_forall (List.forall_mem_append.2 ⟨hopen', ?_⟩)
    rw [List.forall_mem_singleton, isClosing, hfeed, Bool.and_false]

end

end Frontmatter

open Frontmatter

/-- If the text behind the frontmatter starts with a line, the frontmatter has the lines before it.
-/
theorem frontmatterLines_eq {cs : List Char} (h : endsInFeeds cs = true)
    {front behind : List (List Char)} (hlines : lines cs = front ++ behind)
    (hrest : rest? cs = some behind.flatten) : frontmatterLines cs = front.length := by
  obtain ⟨rest, hparts, hcs, hcount⟩ := lines_frontmatter h
  have hflatten : cs = front.flatten ++ behind.flatten := by
    rw [← List.flatten_append, ← hlines, flatten_lines]
  have hfrontmatter : frontmatter cs = front.flatten := by
    have hlength : cs.length - behind.flatten.length = front.flatten.length := by
      rw [hflatten, List.length_append, Nat.add_sub_cancel]
    rw [frontmatter, hrest]
    change cs.take (cs.length - _) = _
    rw [hlength, hflatten, List.take_left]
  have hbehind : rest = behind.flatten := by
    rw [hfrontmatter, hflatten] at hcs
    exact (List.append_cancel_left hcs).symm
  have hdrop : lines rest = behind := by
    have hpart : (lines cs).drop front.length = behind := by rw [hlines, List.drop_left]
    rw [hbehind, ← hpart, lines_flatten_drop]
  rw [hcount]
  congr 1
  rw [hdrop, hlines] at hparts
  exact (List.append_cancel_right hparts).symm

theorem frontmatterLines_eq_zero {cs : List Char} (h : rest? cs = none) :
    frontmatterLines cs = 0 := by
  rw [frontmatterLines, frontmatter, h]
  rfl

namespace Document

/-! ### What the frontmatter takes away from a document -/

variable {dialect : Markdown.Dialect} {cwd path content : String}

/-- Links and block anchors stand below the frontmatter. -/
theorem frontmatterLines_lt_of_mem_places {p : Place}
    (h : p ∈ (parse dialect cwd path content).places) :
    frontmatterLines content.toList < p.line := by
  obtain ⟨i, line, hi, -, hexcluded, -⟩ := exists_line_of_mem_places h
  rw [isExcluded, Bool.or_eq_false_iff, decide_eq_false_iff_not] at hexcluded
  omega

/-- Headings stand below the frontmatter. -/
theorem frontmatterLines_lt_of_mem_headings {o : Heading}
    (h : o ∈ (parse dialect cwd path content).headings) :
    frontmatterLines content.toList < o.line := by
  obtain ⟨b, hb, ho⟩ := List.mem_filterMap.1 h
  have hfirst : frontmatterLines content.toList ≤ b.first := Markdown.le_first_of_mem_blocks hb
  split at ho
  · cases ho
    exact Nat.lt_succ_of_le hfirst
  · cases ho

/-- **The frontmatter of a document ends with its first `n` lines**, apart from blank ones below:
these hold neither links and block anchors nor headings, and no line with text below them is
excluded for any reason but code. -/
structure EndsFrontmatter (d : Document) (n : Nat) : Prop where
  lines : d.lines.take (frontmatterLines d.content.toList) =
    d.lines.take n ++ (d.lines.drop n).takeWhile isBlankLine
  places : ∀ p ∈ d.places, n < p.line
  headings : ∀ o ∈ d.headings, n < o.line
  kept : ∀ i line, n ≤ i → d.lines[i]? = some line → allBlank line = false →
    isExcluded (frontmatterLines d.content.toList) d.blocks i = Markdown.isCodeLine d.blocks i

/-- Between two lines that the frontmatter ends with, all are blank. -/
theorem EndsFrontmatter.isBlankLine_of_lt {d : Document} {m n i : Nat} {line : List Char}
    (hm : d.EndsFrontmatter m) (hn : d.EndsFrontmatter n) (hmi : m ≤ i) (hin : i < n)
    (hline : d.lines[i]? = some line) : isBlankLine line = true := by
  have hlt : i < d.lines.length := (List.getElem?_eq_some_iff.1 hline).1
  have hget := congrArg (·[i]?) (hn.lines.symm.trans hm.lines)
  have hmin : min m d.lines.length = m := by omega
  rw [List.getElem?_append_left (by rw [List.length_take]; omega), List.getElem?_take_of_lt hin,
    hline, List.getElem?_append_right (by rw [List.length_take]; omega)] at hget
  exact List.mem_takeWhile_imp (List.mem_of_getElem? hget.symm)

/-- The frontmatter ends with the line that the text behind it, but for blank lines, is behind. -/
theorem endsFrontmatter_of_rest? (h : endsInFeeds content.toList = true)
    {front behind : List (List Char)} {last : List Char}
    (hlines : Text.lines content.toList = front ++ last :: behind)
    (hrest : rest? content.toList = some (behind.dropWhile isBlankLine).flatten) :
    (parse dialect cwd path content).EndsFrontmatter (front.length + 1) := by
  have hlength : (front ++ [last]).length = front.length + 1 := List.length_append
  rw [List.append_cons] at hlines
  rw [← hlength]
  generalize front ++ [last] = front at hlines ⊢
  have hall : Text.lines content.toList =
      (front ++ behind.takeWhile isBlankLine) ++ behind.dropWhile isBlankLine := by
    rw [hlines, List.append_assoc, List.takeWhile_append_dropWhile]
  have hcount := frontmatterLines_eq h hall hrest
  have hle : front.length ≤ frontmatterLines content.toList := by
    rw [hcount, List.length_append]
    exact Nat.le_add_right ..
  refine ⟨?_, fun p hp => Nat.lt_of_le_of_lt hle (frontmatterLines_lt_of_mem_places hp),
    fun o ho => Nat.lt_of_le_of_lt hle (frontmatterLines_lt_of_mem_headings ho), ?_⟩
  · change (Text.lines content.toList).take (frontmatterLines content.toList) =
      (Text.lines content.toList).take front.length ++
        ((Text.lines content.toList).drop front.length).takeWhile isBlankLine
    rw [hcount, hlines, List.take_left, List.drop_left, ← hlines, hall, List.take_left]
  · intro i line hi hline htext
    change (Text.lines content.toList)[i]? = some line at hline
    have hbelow : ¬ i < frontmatterLines content.toList := by
      intro hlt
      rw [hcount] at hlt
      rw [hall, List.getElem?_append_left hlt, List.getElem?_append_right hi] at hline
      have hblank := List.mem_takeWhile_imp (List.mem_of_getElem? hline)
      rw [isBlankLine, htext, Bool.false_and] at hblank
      cases hblank
    change (decide (i < frontmatterLines content.toList) || _) = _
    rw [decide_eq_false hbelow, Bool.false_or]

theorem endsFrontmatter_of_rest?_eq_none {first : List Char} {ls : List (List Char)}
    (hlines : Text.lines content.toList = first :: ls) (hfirst : isBlankLine first = false)
    (hrest : rest? content.toList = none) :
    (parse dialect cwd path content).EndsFrontmatter 0 := by
  have hcount := frontmatterLines_eq_zero hrest
  refine ⟨?_, fun p hp => Nat.zero_lt_of_lt (frontmatterLines_lt_of_mem_places hp),
    fun o ho => Nat.zero_lt_of_lt (frontmatterLines_lt_of_mem_headings ho), ?_⟩
  · change (Text.lines content.toList).take (frontmatterLines content.toList) =
      [] ++ (Text.lines content.toList).takeWhile isBlankLine
    rw [hcount, hlines, List.takeWhile_cons, hfirst]
    rfl
  · intro i line _ _ _
    change (decide (i < frontmatterLines content.toList) || _) = _
    rw [hcount]
    rfl

theorem length_through (first closing : List Char) (between more : List (List Char)) :
    (first :: (between ++ closing :: more)).length = between.length + more.length + 2 := by
  simp only [List.length_cons, List.length_append]
  omega

section

variable {first closing : List Char} {between after : List (List Char)}
  (h : endsInFeeds content.toList = true)
  (hlines : Text.lines content.toList = first :: (between ++ closing :: after))
  (hfirst : isDelimiter first = true) (hbetween : ∀ l ∈ between, isDelimiter l = false)
  (hclosing : isDelimiter closing = true)

include hlines

theorem lines_eq_append {more behind : List (List Char)} {last : List Char}
    (hafter : after = more ++ last :: behind) :
    Text.lines content.toList = (first :: (between ++ closing :: more)) ++ last :: behind := by
  rw [hlines, hafter]
  simp

include h

theorem feedLines_between : FeedLines (between ++ closing :: after) :=
  (hlines ▸ feedLines_lines h : FeedLines (first :: (between ++ closing :: after))).of_cons

include hfirst

/-- The first line opens the frontmatter, as there are more lines. -/
theorem rest?_eq_behindInside :
    rest? content.toList = (behindInside (between ++ closing :: after)).map List.flatten := by
  have hfeed : FeedLines ([] ++ first :: (between ++ closing :: after)) :=
    hlines ▸ feedLines_lines h
  have hopens : isClosing first = true := by
    rw [isClosing, hfirst, Bool.true_and]
    by_contra hend
    exact absurd (hfeed.eq_nil_of_endsInLineFeed (Bool.eq_false_iff.2 hend)) (by simp)
  rw [← rest?_flatten hfeed hopens, ← hlines, flatten_lines]

include hbetween hclosing

theorem endsFrontmatter_of_closesFirst (hc : ClosesFirst between closing after) :
    (parse dialect cwd path content).EndsFrontmatter (between.length + 2) := by
  have hparts : Text.lines content.toList = (first :: between) ++ closing :: after := hlines
  refine endsFrontmatter_of_rest? h hparts ?_
  rw [rest?_eq_behindInside h hlines hfirst, behindInside_of_closesFirst hbetween hclosing hc]
  rfl

/-- There is no frontmatter if no line closes it. -/
theorem endsFrontmatter_zero (hc : ¬ ClosesFirst between closing after)
    (hafter : ∀ l ∈ after, isClosing l = false) :
    (parse dialect cwd path content).EndsFrontmatter 0 := by
  refine endsFrontmatter_of_rest?_eq_none hlines (isBlankLine_of_isDelimiter hfirst) ?_
  rw [rest?_eq_behindInside h hlines hfirst, behindInside_of_not_closesFirst hbetween hclosing
    (feedLines_between h hlines) hc, behindClosed_of_forall hafter]
  rfl

/-- If the first line of dashes does not close the frontmatter, the first later line that can does.
-/
theorem endsFrontmatter_of_not_closesFirst (hc : ¬ ClosesFirst between closing after)
    {more behind : List (List Char)} {last : List Char} (hafter : after = more ++ last :: behind)
    (hmore : ∀ l ∈ more, isClosing l = false) (hlast : isClosing last = true) :
    (parse dialect cwd path content).EndsFrontmatter (between.length + more.length + 3) := by
  have hrest : rest? content.toList = some (behind.dropWhile isBlankLine).flatten := by
    rw [rest?_eq_behindInside h hlines hfirst, behindInside_of_not_closesFirst hbetween hclosing
      (feedLines_between h hlines) hc, hafter, behindClosed_append hmore,
      behindClosed_cons_of_isClosing hlast]
    rfl
  have hends : (parse dialect cwd path content).EndsFrontmatter
      ((first :: (between ++ closing :: more)).length + 1) :=
    endsFrontmatter_of_rest? h (lines_eq_append hlines hafter) hrest
  rwa [length_through] at hends

end

/-- **Where the frontmatter ends.**  It ends with the first line of dashes behind the one that opens
it exactly if that line closes it, as told by the lines around it.  Otherwise it ends with the first
later line that can, and there is none if no line can. -/
theorem endsFrontmatter_iff (h : endsInFeeds content.toList = true) {first closing : List Char}
    {between after : List (List Char)}
    (hlines : Text.lines content.toList = first :: (between ++ closing :: after))
    (hfirst : isDelimiter first = true) (hbetween : ∀ l ∈ between, isDelimiter l = false)
    (hclosing : isDelimiter closing = true) :
    let d := parse dialect cwd path content
    (d.EndsFrontmatter (between.length + 2) ↔ ClosesFirst between closing after) ∧
      (¬ ClosesFirst between closing after →
        ((∀ l ∈ after, isClosing l = false) → d.EndsFrontmatter 0) ∧
        ∀ more last behind, after = more ++ last :: behind → (∀ l ∈ more, isClosing l = false) →
          isClosing last = true → d.EndsFrontmatter (between.length + more.length + 3)) := by
  intro d
  have hnone (hc : ¬ ClosesFirst between closing after)
      (hafter : ∀ l ∈ after, isClosing l = false) : d.EndsFrontmatter 0 :=
    endsFrontmatter_zero h hlines hfirst hbetween hclosing hc hafter
  have hlater (hc : ¬ ClosesFirst between closing after) (more : List (List Char))
      (last : List Char) (behind : List (List Char)) (hafter : after = more ++ last :: behind)
      (hmore : ∀ l ∈ more, isClosing l = false) (hlast : isClosing last = true) :
      d.EndsFrontmatter (between.length + more.length + 3) :=
    endsFrontmatter_of_not_closesFirst h hlines hfirst hbetween hclosing hc hafter hmore hlast
  refine ⟨⟨fun hd => ?_, endsFrontmatter_of_closesFirst h hlines hfirst hbetween hclosing⟩,
    fun hc => ⟨hnone hc, hlater hc⟩⟩
  -- otherwise a line of dashes would be among the blank ones below the frontmatter
  by_contra hc
  rcases forall_or_exists_isClosing after with hafter | ⟨more, last, behind, hafter, hmore, hlast⟩
  · have hline : d.lines[0]? = some first := congrArg (·[0]?) hlines
    have hblank := (hnone hc hafter).isBlankLine_of_lt hd (Nat.le_refl 0) (Nat.succ_pos _) hline
    rw [isBlankLine_of_isDelimiter hfirst] at hblank
    cases hblank
  · have hline : d.lines[between.length + more.length + 2]? = some last := by
      change (Text.lines content.toList)[_]? = _
      rw [lines_eq_append hlines hafter, ← length_through first closing,
        List.getElem?_append_right (Nat.le_refl _), Nat.sub_self]
      rfl
    have hblank := hd.isBlankLine_of_lt (hlater hc more last behind hafter hmore hlast) (by omega)
      (by omega) hline
    rw [isBlankLine_of_isDelimiter (isDelimiter_of_isClosing hlast)] at hblank
    cases hblank

/-- A text with a line between the two lines of dashes. -/
def referring : String := "---\nref: [a](b.md)\n---\n\n[c](c.md)\n"

/-- A text with a blank line between the two lines of dashes, and a third one further down. -/
def ruled : String := "---\n\n---\n[x](a.md)\n\n---\n"

theorem eq_lineFeed_of_mem_ruled : ∀ c ∈ ruled.toList, isLineBreak c = true → c = '\n' := by
  have hchars : (ruled.toList.all fun c => !isLineBreak c || c == '\n') = true := by decide +kernel
  intro c hc hbreak
  simpa [hbreak] using List.all_eq_true.1 hchars c hc

theorem endsFrontmatter_iff_referring :
    (parse .standard "/" "/referring.md" referring).EndsFrontmatter 3 ∧
      (parse .standard "/" "/ruled.md" ruled).EndsFrontmatter 6 := by
  have hcloses : ClosesFirst ["ref: [a](b.md)\n".toList] "---\n".toList
      ["\n".toList, "[c](c.md)\n".toList] := by decide +kernel
  have hpasses : ¬ ClosesFirst ["\n".toList] "---\n".toList
      ["[x](a.md)\n".toList, "\n".toList, "---\n".toList] := by decide +kernel
  constructor
  · exact (@endsFrontmatter_iff .standard "/" "/referring.md" referring (by decide +kernel)
      "---\n".toList "---\n".toList ["ref: [a](b.md)\n".toList] _ (by decide +kernel)
      (by decide +kernel) (by decide +kernel) (by decide +kernel)).1.2 hcloses
  · have hlater := (@endsFrontmatter_iff .standard "/" "/ruled.md" ruled
      (endsInFeeds_of_forall eq_lineFeed_of_mem_ruled) "---\n".toList "---\n".toList
      ["\n".toList] _ (by decide +kernel) (by decide +kernel) (by decide +kernel)
      (by decide +kernel)).2 hpasses
    exact hlater.2 ["[x](a.md)\n".toList, "\n".toList] "---\n".toList [] rfl (by decide +kernel)
      (by decide +kernel)

/-- **The frontmatter may end later than with the first line of dashes.** -/
theorem not_endsFrontmatter :
    ¬ ∀ (dialect : Markdown.Dialect) (cwd path content : String) (first closing : List Char)
      (between after : List (List Char)),
      (∀ c ∈ content.toList, isLineBreak c = true → c = '\n') →
      Text.lines content.toList = first :: (between ++ closing :: after) →
      isDelimiter first = true → (∀ l ∈ between, isDelimiter l = false) →
      isDelimiter closing = true →
      (parse dialect cwd path content).EndsFrontmatter (between.length + 2) := by
  intro hall
  have hends := hall .standard "/" "/ruled.md" ruled "---\n".toList "---\n".toList ["\n".toList]
    ["[x](a.md)\n".toList, "\n".toList, "---\n".toList] eq_lineFeed_of_mem_ruled
    (by decide +kernel) (by decide +kernel) (by decide +kernel) (by decide +kernel)
  -- the line with the link is left out, and it is no code
  have hkept := hends.kept 3 "[x](a.md)\n".toList (by decide) (by decide +kernel)
    (by decide +kernel)
  exact absurd hkept (by decide +kernel)

end Document

end Citations

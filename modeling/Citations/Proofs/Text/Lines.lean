/-
**Where the lines of a text end.**

A line ends in a character that ends lines, or in a carriage return with a line feed, and holds no
such character before its end.  So the line feeds of a text are counted by the lines that end in
one, the lines of a part of a text that ends with a line are lines of the text, and a line without
its carriage returns and line feeds at the end is a line without any.

Main definitions:

* `Citations.Text.isReturn` — a carriage return or a line feed;
* `Citations.Text.endsInLineFeed`, `Citations.Text.endsInReturn` — how a line ends.

Main results:

* `Citations.Text.lines_append` — the lines of two texts, the first of which ends in a line feed;
* `Citations.Text.lines_flatten_drop` — lines from some line on are those of the text from there on;
* `Citations.Text.count_lineFeed` — **the line feeds of a text are counted by its lines**;
* `Citations.Text.isReturn_of_mem_chomp` — a line holds no return before its end.
-/

import Citations.Text.Lines
import Mathlib.Data.List.Basic
import Mathlib.Data.List.TakeWhile

set_option relaxedAutoImplicit false
set_option autoImplicit false

namespace Citations.Text

/-! ### Line feeds and carriage returns -/

theorem isLineBreak_lineFeed : isLineBreak '\n' = true := by decide

theorem isLineBreak_carriageReturn : isLineBreak '\r' = true := by decide

/-- A carriage return or a line feed. -/
def isReturn (c : Char) : Bool := c == '\n' || c == '\r'

theorem isReturn_of_not_isLineBreak {c : Char} (h : ¬ isLineBreak c = true) :
    isReturn c = false := by
  refine Bool.eq_false_iff.2 fun hreturn => h ?_
  rcases Bool.or_eq_true_iff.1 hreturn with hc | hc
  · exact beq_iff_eq.1 hc ▸ isLineBreak_lineFeed
  · exact beq_iff_eq.1 hc ▸ isLineBreak_carriageReturn

/-- Whether a line ends in a line feed. -/
def endsInLineFeed (l : List Char) : Bool := l.getLast? == some '\n'

/-- Whether a line ends in a carriage return or a line feed. -/
def endsInReturn (l : List Char) : Bool := l.getLast?.any isReturn

@[simp] theorem consLine_nil (c : Char) : consLine c [] = [[c]] := rfl

@[simp] theorem consLine_cons (c : Char) (l : List Char) (ls : List (List Char)) :
    consLine c (l :: ls) = (c :: l) :: ls := rfl

/-- A character that does not end lines does not change how the first line ends. -/
theorem getLast?_cons_of_mem_lines {cs l : List Char} (h : l ∈ lines cs) (c : Char) :
    (c :: l).getLast? = l.getLast? := by
  obtain ⟨x, l, rfl⟩ := List.exists_cons_of_ne_nil (ne_nil_of_mem_lines h)
  rw [List.getLast?_cons_cons]

/-- **The line feeds of a text are counted by its lines.** -/
theorem count_lineFeed (cs : List Char) : cs.count '\n' = (lines cs).countP endsInLineFeed := by
  fun_induction lines cs with
  | case1 => rfl
  | case2 cs ih =>
      rw [List.countP_cons_of_pos (by decide), List.count_cons_of_ne (by decide),
        List.count_cons_self, ih]
  | case3 c cs _ hc ih =>
      by_cases hfeed : c = '\n'
      · subst hfeed
        rw [List.countP_cons_of_pos (by decide), List.count_cons_self, ih]
      · rw [List.countP_cons_of_neg (by simpa [endsInLineFeed] using hfeed),
          List.count_cons_of_ne hfeed, ih]
  | case4 c cs _ hc ih =>
      have hfeed : c ≠ '\n' := by
        rintro rfl
        exact hc isLineBreak_lineFeed
      rw [List.count_cons_of_ne hfeed, ih]
      cases hl : lines cs with
      | nil => rw [consLine_nil, List.countP_cons_of_neg (by simpa [endsInLineFeed] using hfeed)]
      | cons l ls =>
          have hmem : l ∈ lines cs := hl ▸ List.mem_cons_self ..
          rw [consLine_cons, List.countP_cons, List.countP_cons, endsInLineFeed, endsInLineFeed,
            getLast?_cons_of_mem_lines hmem]

/-! ### Parts of a text -/

theorem lines_cons {c : Char} {cs : List Char} (h : ∀ tail, c = '\r' → cs = '\n' :: tail → False) :
    lines (c :: cs) = if isLineBreak c then [c] :: lines cs else consLine c (lines cs) := by
  rw [lines]
  exact h

/-- The lines of two texts, the first of which is empty or ends in a line feed. -/
theorem lines_append {cs : List Char} (ds : List Char) (h : ∀ c ∈ cs.getLast?, c = '\n') :
    lines (cs ++ ds) = lines cs ++ lines ds := by
  have hrest {x : Char} {cs : List Char} (h : ∀ c ∈ (x :: cs).getLast?, c = '\n') :
      ∀ c ∈ cs.getLast?, c = '\n' :=
    fun c hc => h c (List.mem_getLast?_cons hc)
  fun_induction lines cs with
  | case1 => rfl
  | case2 cs ih =>
      rw [List.cons_append, List.cons_append, lines, ih (hrest (hrest h)), List.cons_append]
  | case3 c cs hshape hc ih =>
      -- a line feed that follows a carriage return is in the same text
      have hapart : ∀ tail, c = '\r' → cs ++ ds = '\n' :: tail → False := by
        rintro tail rfl htail
        cases cs with
        | nil => exact absurd (h '\r' rfl) (by decide)
        | cons x cs =>
            cases htail
            exact hshape cs rfl rfl
      rw [List.cons_append, lines_cons hapart, if_pos hc, ih (hrest h), List.cons_append]
  | case4 c cs hshape hc ih =>
      have hapart : ∀ tail, c = '\r' → cs ++ ds = '\n' :: tail → False := by
        rintro tail rfl -
        exact hc isLineBreak_carriageReturn
      rw [List.cons_append, lines_cons hapart, if_neg hc, ih (hrest h)]
      cases hlines : lines cs with
      | nil =>
          rw [lines_eq_nil_iff] at hlines
          subst hlines
          exact absurd isLineBreak_lineFeed (h c rfl ▸ hc)
      | cons l ls => rfl

theorem lines_flatten_tail (cs : List Char) : lines (lines cs).tail.flatten = (lines cs).tail := by
  fun_induction lines cs with
  | case1 => rfl
  | case2 cs ih => rw [List.tail_cons, flatten_lines]
  | case3 c cs _ hc ih => rw [List.tail_cons, flatten_lines]
  | case4 c cs _ hc ih =>
      have htail : (consLine c (lines cs)).tail = (lines cs).tail := by
        cases lines cs <;> rfl
      rw [htail, ih]

/-- Lines from some line on are those of the text from there on. -/
theorem lines_flatten_drop (cs : List Char) (n : Nat) :
    lines ((lines cs).drop n).flatten = (lines cs).drop n := by
  induction n with
  | zero => rw [List.drop_zero, flatten_lines]
  | succ n ih =>
      have htail := lines_flatten_tail ((lines cs).drop n).flatten
      rwa [ih, List.tail_drop] at htail

/-! ### Lines without their ends -/

/-- A text is what is left of it without the characters of a class at its end, and such
characters. -/
theorem exists_dropWhile_reverse_append (inClass : Char → Bool) (cs : List Char) :
    ∃ e, cs = (cs.reverse.dropWhile inClass).reverse ++ e ∧ ∀ c ∈ e, inClass c = true := by
  refine ⟨(cs.reverse.takeWhile inClass).reverse, ?_, fun c hc => ?_⟩
  · have hsplit := List.takeWhile_append_dropWhile (p := inClass) (l := cs.reverse)
    have hback := congrArg List.reverse hsplit
    rw [List.reverse_append, List.reverse_reverse] at hback
    exact hback.symm
  · exact List.mem_takeWhile_imp (List.mem_reverse.1 hc)

/-- A line is what is left of it without its end, and carriage returns and line feeds. -/
theorem exists_chomp_append (l : List Char) :
    ∃ e, l = chomp l ++ e ∧ ∀ c ∈ e, isReturn c = true :=
  exists_dropWhile_reverse_append isReturn l

theorem chomp_cons {c : Char} (h : isReturn c = false) (l : List Char) :
    chomp (c :: l) = c :: chomp l := by
  have hback : (l.reverse ++ [c]).dropWhile isReturn = l.reverse.dropWhile isReturn ++ [c] := by
    rw [List.dropWhile_append]
    split
    · rename_i hnil
      rw [List.isEmpty_iff.1 hnil, List.dropWhile_cons_of_neg (by simp [h]), List.nil_append]
    · rfl
  change ((c :: l).reverse.dropWhile isReturn).reverse = _
  rw [List.reverse_cons, hback, List.reverse_append]
  rfl

/-- A line holds no carriage return and no line feed before its end. -/
theorem isReturn_of_mem_chomp {cs l : List Char} (hl : l ∈ lines cs) :
    ∀ c ∈ chomp l, isReturn c = false := by
  have hsingle (x : Char) : ∀ c ∈ chomp [x], isReturn c = false := by
    intro c hc
    by_cases hx : isReturn x = true
    · have hnil : chomp [x] = [] :=
        congrArg List.reverse (List.dropWhile_cons_of_pos (l := []) hx)
      rw [hnil] at hc
      cases hc
    · rw [chomp_cons (Bool.eq_false_iff.2 hx)] at hc
      rw [List.mem_singleton.1 hc]
      exact Bool.eq_false_iff.2 hx
  fun_induction lines cs generalizing l with
  | case1 => cases hl
  | case2 cs ih =>
      rcases List.mem_cons.1 hl with rfl | hl
      · exact fun c hc => absurd hc (by simp [chomp])
      · exact ih hl
  | case3 x cs hshape hx ih =>
      rcases List.mem_cons.1 hl with rfl | hl
      · exact hsingle x
      · exact ih hl
  | case4 x cs hshape hx ih =>
      cases hlines : lines cs with
      | nil =>
          rw [hlines, consLine_nil, List.mem_singleton] at hl
          exact hl ▸ hsingle x
      | cons l' ls =>
          rw [hlines] at hl ih
          rcases List.mem_cons.1 hl with rfl | hl
          · have hreturn := isReturn_of_not_isLineBreak hx
            rw [chomp_cons hreturn]
            intro c hc
            rcases List.mem_cons.1 hc with rfl | hc
            · exact hreturn
            · exact ih (List.mem_cons_self ..) c hc
          · exact ih (List.mem_cons_of_mem _ hl)

end Citations.Text

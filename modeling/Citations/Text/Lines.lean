/-
**Lines of a text.**

A source document is read line by line.  Ten characters end a line, and a carriage return with a
line feed behind it ends one line, not two; each line keeps its ending, so that the lines make up
the text again.

Main definitions:

* `Citations.Text.isLineBreak` — the characters that end a line;
* `Citations.Text.lines` — the lines of a text, each with its ending;
* `Citations.Text.unifyBreaks` — the text with every carriage return read as a line feed.

Main results:

* `Citations.Text.flatten_lines` — the lines of a text make up the text;
* `Citations.Text.ne_nil_of_mem_lines` — no line is empty;
* `Citations.Text.lines_eq_nil_iff` — only the empty text has no lines.
-/

import Citations.Text.Ranges

set_option relaxedAutoImplicit false
set_option autoImplicit false

namespace Citations.Text

/-- The characters that end a line. -/
def isLineBreak (c : Char) : Bool :=
  inRanges [(0xa, 0xd), (0x1c, 0x1e), (0x85, 0x85), (0x2028, 0x2029)] c.toNat

/-- Puts a character in front of the first line. -/
def consLine (c : Char) : List (List Char) → List (List Char)
  | [] => [[c]]
  | l :: ls => (c :: l) :: ls

@[simp] theorem flatten_consLine (c : Char) (ls : List (List Char)) :
    (consLine c ls).flatten = c :: ls.flatten := by
  cases ls <;> simp [consLine]

/-- The lines of a text, each with its ending. -/
def lines : List Char → List (List Char)
  | [] => []
  | '\r' :: '\n' :: cs => ['\r', '\n'] :: lines cs
  | c :: cs => if isLineBreak c then [c] :: lines cs else consLine c (lines cs)

/-- **The lines of a text make up the text.** -/
@[simp] theorem flatten_lines (cs : List Char) : (lines cs).flatten = cs := by
  fun_induction lines cs with
  | case1 => rfl
  | case2 cs ih => simp [ih]
  | case3 c cs _ h ih => simp [ih]
  | case4 c cs _ h ih => simp [ih]

/-- No line is empty: it holds at least its ending. -/
theorem ne_nil_of_mem_lines {cs l : List Char} (h : l ∈ lines cs) : l ≠ [] := by
  fun_induction lines cs with
  | case1 => simp at h
  | case2 cs ih =>
      rcases List.mem_cons.1 h with rfl | h
      · simp
      · exact ih h
  | case3 c cs _ _ ih =>
      rcases List.mem_cons.1 h with rfl | h
      · simp
      · exact ih h
  | case4 c cs _ _ ih =>
      cases hl : lines cs with
      | nil => simp [hl, consLine] at h; simp [h]
      | cons x xs =>
          rw [hl] at h ih
          rcases List.mem_cons.1 h with rfl | h
          · simp
          · exact ih (List.mem_cons_of_mem _ h)

/-- Only the empty text has no lines. -/
theorem lines_eq_nil_iff (cs : List Char) : lines cs = [] ↔ cs = [] := by
  constructor
  · intro h
    have := flatten_lines cs
    rw [h] at this
    exact this.symm
  · rintro rfl
    rfl

/-- The line without the carriage returns and line feeds at its end. -/
def chomp (l : List Char) : List Char :=
  (l.reverse.dropWhile fun c => c == '\n' || c == '\r').reverse

/-! ### Reading a file -/

/-- The text with a carriage return, alone or before a line feed, read as a line feed. -/
def unifyBreaks : List Char → List Char
  | [] => []
  | '\r' :: '\n' :: cs => '\n' :: unifyBreaks cs
  | c :: cs => (if c = '\r' then '\n' else c) :: unifyBreaks cs

end Citations.Text

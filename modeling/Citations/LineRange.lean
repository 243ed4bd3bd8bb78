/-
**Ranges of lines.**

A report can be limited to the links on certain lines, written `12` or `10-20`.

Main definitions:

* `Citations.LineRange` — the first and the last line, in this order;
* `Citations.LineRange.parse` — reads a range as the user writes it;
* `Citations.LineRange.contains` — whether a line is in the range.

Main results:

* `Citations.LineRange.contains_first` — a range holds its first line.
-/

import Citations.Text.Blank
import Citations.Text.Digit
import Citations.Text.Quoted

set_option relaxedAutoImplicit false
set_option autoImplicit false

namespace Citations

open Text

/-- The first and the last line of a range. -/
structure LineRange where
  first : Nat
  last : Nat
  first_le_last : first ≤ last

namespace LineRange

/-- Why a text is no range of lines. -/
inductive Error where
  /-- It is neither a number nor two numbers with a hyphen between them. -/
  | malformed (written : String)
  /-- It ends before it starts. -/
  | reversed (written : String)
  /-- One of its numbers has too many digits. -/
  | tooLong (numeral : LongNumeral)

/-- The words for an error. -/
def Error.message : Error → String
  | .malformed s => "Invalid line range: " ++ quote s ++ " (expected N or A-B)"
  | .reversed s => "Invalid line range: " ++ quote s ++ " (end before start)"
  | .tooLong e => e.message

/-- The one or two rows of digits in a range; a single one is both. -/
def numerals? (cs : List Char) : Option (List Char × List Char) :=
  let first := cs.takeWhile isDecimal
  if first.isEmpty then none
  else
    match cs.dropWhile isDecimal with
    | [] => some (first, first)
    | '-' :: last => if last.isEmpty || !last.all isDecimal then none else some (first, last)
    | _ => none

/-- **Reads a range as the user writes it**, white space around it aside. -/
def parse (written : String) : Except Error LineRange := do
  match numerals? (trim written.toList) with
  | none => throw (.malformed written)
  | some (start, stop) =>
      let first ← (boundedNumeral start).mapError .tooLong
      let last ← (boundedNumeral stop).mapError .tooLong
      if h : first ≤ last then return ⟨first, last, h⟩ else throw (.reversed written)

/-- Whether a line is in the range. -/
def contains (r : LineRange) (line : Nat) : Bool := r.first ≤ line && line ≤ r.last

theorem contains_first (r : LineRange) : r.contains r.first = true := by
  simp [contains, r.first_le_last]

end LineRange

end Citations

/-
**White space.**

White space separates the parts of a citation and surrounds what is trimmed away.  The class holds
the separators of Unicode, the control characters from tab to carriage return, the four information
separators U+001C to U+001F and the next-line character U+0085.

Main definitions:

* `Citations.Text.isBlank` — the class of white-space characters;
* `Citations.Text.trimStart`, `Citations.Text.trimEnd`, `Citations.Text.trim` — removal of white
  space at one end or at both;
* `Citations.Text.strip` — removal of the characters of any class at both ends.

Main results:

* `Citations.Text.trimStart_append` — trimming the start removes a part that is all blank.
-/

import Citations.Text.Ranges

set_option relaxedAutoImplicit false
set_option autoImplicit false

namespace Citations.Text

/-- The white-space characters. -/
def blankRanges : List (Nat × Nat) :=
  [(0x9, 0xd), (0x1c, 0x20), (0x85, 0x85), (0xa0, 0xa0), (0x1680, 0x1680), (0x2000, 0x200a),
   (0x2028, 0x2029), (0x202f, 0x202f), (0x205f, 0x205f), (0x3000, 0x3000)]

/-- White space: what is trimmed and what separates. -/
def isBlank (c : Char) : Bool := inRanges blankRanges c.toNat

/-! ### Trimming -/

/-- The text without the white space at its start. -/
def trimStart (cs : List Char) : List Char := cs.dropWhile isBlank

/-- The text without the white space at its end. -/
def trimEnd (cs : List Char) : List Char := (cs.reverse.dropWhile isBlank).reverse

/-- The text without the white space at either end. -/
def trim (cs : List Char) : List Char := trimEnd (trimStart cs)

/-- What `trimStart` removes is all blank. -/
theorem trimStart_append (cs : List Char) :
    cs.takeWhile isBlank ++ trimStart cs = cs := List.takeWhile_append_dropWhile

/-- The text without the characters of a class at either end. -/
def strip (inClass : Char → Bool) (cs : List Char) : List Char :=
  ((cs.dropWhile inClass).reverse.dropWhile inClass).reverse

/-- Whether nothing but white space is left. -/
def allBlank (cs : List Char) : Bool := cs.all isBlank

end Citations.Text

/-
**The white space around the content of a block.**

The text of a heading, a row of a table, a cell and the label of a reference are taken without the
white space at either end.  This class is not the one that separates words elsewhere: it holds the
separators of Unicode, the control characters from tab to carriage return and the mark U+FEFF, but
neither the information separators U+001C to U+001F nor the next-line character U+0085.

Main definitions:

* `Citations.Markdown.isMargin` — the class;
* `Citations.Markdown.trimMargins` — a text without it at either end.
-/

import Citations.Text.Blank

set_option relaxedAutoImplicit false
set_option autoImplicit false

namespace Citations.Markdown

open Text

/-- The characters that may surround the content of a block. -/
def marginRanges : List (Nat × Nat) :=
  [(0x9, 0xd), (0x20, 0x20), (0xa0, 0xa0), (0x1680, 0x1680), (0x2000, 0x200a), (0x2028, 0x2029),
   (0x202f, 0x202f), (0x205f, 0x205f), (0x3000, 0x3000), (0xfeff, 0xfeff)]

/-- White space around the content of a block. -/
def isMargin (c : Char) : Bool := inRanges marginRanges c.toNat

/-- A text without the white space around it. -/
def trimMargins (cs : List Char) : List Char := strip isMargin cs

end Citations.Markdown

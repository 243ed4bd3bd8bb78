/-
**Marks that start a block.**

Most blocks are recognised by what a line's content starts with.  The functions here look at the
content of one line, its indentation aside.

Main definitions:

* `Citations.Markdown.fenceMark` — the backticks or tildes that open a block of code;
* `Citations.Markdown.isBreak` — a line that is a thematic break;
* `Citations.Markdown.headingMark` — the number signs of a heading, and its text;
* `Citations.Markdown.underline` — the level of a heading that a line underlines;
* `Citations.Markdown.listMark` — the mark of a list item.
-/

import Citations.Markdown.Line
import Citations.Markdown.Margin
import Citations.Text.Digit

set_option relaxedAutoImplicit false
set_option autoImplicit false

namespace Citations.Markdown

open Text

/-- How often a text repeats a character at its start. -/
def run (mark : Char) (cs : List Char) : Nat := (cs.takeWhile (· = mark)).length

/-! ### Code -/

/-- The character and the number of the marks that open a block of code.  What follows backticks
must not hold another one. -/
def fenceMark (cs : List Char) : Option (Char × Nat) :=
  match cs with
  | c :: _ =>
      if (c = '`' ∨ c = '~') ∧ 3 ≤ run c cs ∧ ¬(c = '`' ∧ (cs.drop (run c cs)).contains '`') then
        some (c, run c cs)
      else none
  | [] => none

/-- Whether a line closes a block of code that was opened by `count` marks. -/
def closesFence (mark : Char) (count : Nat) (cs : List Char) : Bool :=
  count ≤ run mark cs && (cs.drop (run mark cs)).all isGap

/-! ### Breaks and headings -/

/-- Whether a line is a thematic break: three or more of one mark, with blanks anywhere. -/
def isBreak (cs : List Char) : Bool :=
  match cs with
  | c :: _ =>
      (c == '*' || c == '-' || c == '_') && cs.all (fun x => x == c || isGap x) && 3 ≤ cs.count c
  | [] => false

/-- A text without the number signs that close a heading, which a blank must precede. -/
def dropClosingSigns (cs : List Char) : List Char :=
  let back := cs.reverse.dropWhile isGap
  let rest := back.dropWhile (· = '#')
  match rest with
  | c :: _ => if isGap c then rest.reverse else back.reverse
  | [] => back.reverse

/-- The level of a heading that starts with number signs, and its text. -/
def headingMark (cs : List Char) : Option (Nat × List Char) :=
  let level := run '#' cs
  let rest := cs.drop level
  if 1 ≤ level ∧ level ≤ 6 ∧ rest.head?.all isGap then
    some (level, trimMargins (dropClosingSigns rest))
  else none

/-- The level of the heading that a line underlines: one with `=`, two with `-`. -/
def underline (cs : List Char) : Option Nat :=
  match cs with
  | c :: _ =>
      if (c = '=' ∨ c = '-') ∧ (cs.drop (run c cs)).all isGap then
        some (if c = '=' then 1 else 2)
      else none
  | [] => none

/-! ### Lists -/

/-- The mark of a list item: its number if it has one, the character that marks it, and how many
characters it takes. -/
structure ListMark where
  number : Option Nat
  mark : Char
  length : Nat

/-- Whether two marks belong to items of one list. -/
def ListMark.sameKind (a b : ListMark) : Bool :=
  a.number.isSome == b.number.isSome && a.mark == b.mark

/-- The mark of an item at the start of a text.  A number has at most nine digits, and a blank
follows the mark unless the line ends. -/
def listMark (cs : List Char) : Option ListMark :=
  let digits := cs.takeWhile Char.isDigit
  match cs.drop digits.length with
  | c :: rest =>
      if rest.head?.all isGap then
        if digits.isEmpty then
          if c = '*' ∨ c = '-' ∨ c = '+' then some ⟨none, c, 1⟩ else none
        else if digits.length ≤ 9 ∧ (c = '.' ∨ c = ')') then
          some ⟨some (numeral digits), c, digits.length + 1⟩
        else none
      else none
  | [] => none

end Citations.Markdown

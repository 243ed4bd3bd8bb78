/-
**Escapes and character references.**

In a destination a backslash takes the meaning from a mark, and a reference such as `&colon;`,
`&#58;` or `&#x3a;` stands for a character.  Names are known for the characters that a scheme, or
what surrounds it, can be spelled with: a few marks and all kinds of white space.

Main definitions:

* `Citations.Markdown.Entity.isReferable` — whether a number may stand for a character;
* `Citations.Markdown.Entity.characters?` — the characters that a reference stands for;
* `Citations.Markdown.Entity.unescape` — a text with its escapes and references read.
-/

import Citations.Text.Digit
import Citations.Text.Percent
import Citations.Text.Ranges

set_option relaxedAutoImplicit false
set_option autoImplicit false

namespace Citations.Markdown.Entity

open Text

/-! ### Numbers -/

/-- The numbers that stand for no character: control characters, surrogates, and what is reserved
for no character at all. -/
def barredRanges : List (Nat × Nat) :=
  [(0x0, 0x8), (0xb, 0xb), (0xe, 0x1f), (0x7f, 0x9f), (0xd800, 0xdfff), (0xfdd0, 0xfdef)]

/-- Whether a number may stand for a character. -/
def isReferable (n : Nat) : Bool :=
  n < 0x110000 && !inRanges barredRanges n && n % 0x10000 < 0xfffe

/-- How many digits a number may have. -/
def maxDigits : Nat := 8

/-- The character of a number in the given base, of whose digits there must be some. -/
def ofDigits? (base : Nat) (isDigit : Char → Bool) (ds : List Char) : Option Char :=
  let n := ds.foldl (fun n c => base * n + (hexValue? c).getD 0) 0
  if !ds.isEmpty && ds.length ≤ maxDigits && ds.all isDigit && isReferable n then
    some (Char.ofNat n)
  else none

/-! ### Names -/

/-- The names of marks and of white space, with what they stand for. -/
def names : List (String × List Char) :=
  [("colon", [':']), ("sol", ['/']), ("semi", [';']), ("commat", ['@']),
   ("Tab", ['\t']), ("NewLine", ['\n']),
   ("nbsp", ['\u00a0']), ("NonBreakingSpace", ['\u00a0']),
   ("ensp", ['\u2002']), ("emsp", ['\u2003']), ("emsp13", ['\u2004']), ("emsp14", ['\u2005']),
   ("numsp", ['\u2007']), ("puncsp", ['\u2008']),
   ("thinsp", ['\u2009']), ("ThinSpace", ['\u2009']),
   ("hairsp", ['\u200a']), ("VeryThinSpace", ['\u200a']),
   ("MediumSpace", ['\u205f']), ("ThickSpace", ['\u205f', '\u200a'])]

/-- **The characters that a reference stands for**, given what is between its ampersand and its
semicolon. -/
def characters? : List Char → Option (List Char)
  | '#' :: 'x' :: ds | '#' :: 'X' :: ds =>
      (ofDigits? 16 (fun c => (hexValue? c).isSome) ds).map ([·])
  | '#' :: ds => (ofDigits? 10 Char.isDigit ds).map ([·])
  | name => (names.find? fun n => n.1.toList = name).map Prod.snd

/-! ### Texts -/

/-- Whether a backslash takes the meaning from a character. -/
def isEscapable (c : Char) : Bool :=
  0x20 < c.toNat && c.toNat < 0x7f && !c.isAlphanum

/-- **A text with its escapes and references read**; `skip` characters still belong to a reference
that was read. -/
def unescape : (skip : Nat) → List Char → List Char
  | _, [] => []
  | skip + 1, _ :: cs => unescape skip cs
  | 0, '\\' :: c :: cs =>
      if isEscapable c then c :: unescape 0 cs else '\\' :: unescape 0 (c :: cs)
  | 0, '&' :: cs =>
      let name := cs.takeWhile (· ≠ ';')
      match (if name.length < cs.length then characters? name else none) with
      | some found => found ++ unescape (name.length + 1) cs
      | none => '&' :: unescape 0 cs
  | 0, c :: cs => c :: unescape 0 cs

end Citations.Markdown.Entity

/-
**Percent-encoding.**

A link may write a character of its target as `%` and two hexadecimal digits for each byte.  An
escape that is malformed stands for itself.  The bytes of neighbouring escapes and ASCII characters
are read as UTF-8 together; a character outside ASCII is never part of an escape.

Main definitions:

* `Citations.Text.hexValue?` — the value of a hexadecimal digit;
* `Citations.Text.percentUnits` — a text as bytes and characters outside ASCII;
* `Citations.Text.percentDecode` — the text that a percent-encoded text stands for.
-/

import Citations.Text.Utf8

set_option relaxedAutoImplicit false
set_option autoImplicit false

namespace Citations.Text

/-- The value of a hexadecimal digit, in either case. -/
def hexValue? (c : Char) : Option Nat :=
  if '0' ≤ c ∧ c ≤ '9' then some (c.toNat - '0'.toNat)
  else if 'a' ≤ c ∧ c ≤ 'f' then some (c.toNat - 'a'.toNat + 10)
  else if 'A' ≤ c ∧ c ≤ 'F' then some (c.toNat - 'A'.toNat + 10)
  else none

/-- What a percent-encoded text is made of. -/
inductive PercentUnit where
  | byte (b : UInt8)
  | wide (c : Char)

/-- A character that is not part of an escape. -/
def PercentUnit.ofChar (c : Char) : PercentUnit :=
  if c.val < 0x80 then .byte (UInt8.ofNat c.toNat) else .wide c

/-- A text as bytes and characters outside ASCII, each well-formed escape being one byte. -/
def percentUnits : List Char → List PercentUnit
  | [] => []
  | '%' :: a :: b :: cs =>
      match hexValue? a, hexValue? b with
      | some x, some y => .byte (UInt8.ofNat (16 * x + y)) :: percentUnits cs
      | _, _ => .ofChar '%' :: percentUnits (a :: b :: cs)
  | c :: cs => .ofChar c :: percentUnits cs

/-- Reads each run of bytes as UTF-8; `run` holds the bytes of the current run, last one first. -/
def joinUnits : List UInt8 → List PercentUnit → List Char
  | run, [] => Utf8.decodeLossy run.reverse
  | run, .byte b :: us => joinUnits (b :: run) us
  | run, .wide c :: us => Utf8.decodeLossy run.reverse ++ c :: joinUnits [] us

/-- **The text that a percent-encoded text stands for.** -/
def percentDecode (cs : List Char) : List Char := joinUnits [] (percentUnits cs)

/-- The text that a percent-encoded text stands for. -/
def decode (s : String) : String := String.ofList (percentDecode s.toList)

end Citations.Text

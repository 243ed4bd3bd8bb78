/-
**Decimal digits.**

Line numbers may be written with the decimal digits of any script.  Each script has ten digits in a
row, so its class is given by the place of its zero.

Main definitions:

* `Citations.Text.digitValue?` — the value of a decimal digit;
* `Citations.Text.numeral` — the number that a row of digits denotes;
* `Citations.Text.boundedNumeral` — the same for a row that may be too long to be read.
-/

set_option relaxedAutoImplicit false
set_option autoImplicit false

namespace Citations.Text

/-- The zeros of the scripts that have decimal digits. -/
def digitZeros : List Nat :=
  [0x30, 0x660, 0x6f0, 0x7c0, 0x966, 0x9e6, 0xa66, 0xae6, 0xb66, 0xbe6, 0xc66, 0xce6, 0xd66,
   0xde6, 0xe50, 0xed0, 0xf20, 0x1040, 0x1090, 0x17e0, 0x1810, 0x1946, 0x19d0, 0x1a80, 0x1a90,
   0x1b50, 0x1bb0, 0x1c40, 0x1c50, 0xa620, 0xa8d0, 0xa900, 0xa9d0, 0xa9f0, 0xaa50, 0xabf0, 0xff10,
   0x104a0, 0x10d30, 0x11066, 0x110f0, 0x11136, 0x111d0, 0x112f0, 0x11450, 0x114d0, 0x11650,
   0x116c0, 0x11730, 0x118e0, 0x11950, 0x11c50, 0x11d50, 0x11da0, 0x16a60, 0x16ac0, 0x16b50,
   0x1d7ce, 0x1d7d8, 0x1d7e2, 0x1d7ec, 0x1d7f6, 0x1e140, 0x1e2f0, 0x1e950, 0x1fbf0]

/-- The value of a decimal digit of any script. -/
def digitValue? (c : Char) : Option Nat :=
  (digitZeros.find? fun z => z ≤ c.toNat && c.toNat < z + 10).map (c.toNat - ·)

/-- Whether a character is a decimal digit of any script. -/
def isDecimal (c : Char) : Bool := (digitValue? c).isSome

/-- The number that a row of decimal digits denotes; other characters count as zero. -/
def numeral (cs : List Char) : Nat :=
  cs.foldl (fun n c => 10 * n + (digitValue? c).getD 0) 0

/-! ### Rows that are too long -/

/-- How many digits a number may have that is read from a text; zeros in front count. -/
def maxDigits : Nat := 4300

/-- A row of digits that is too long to be read. -/
structure LongNumeral where
  digits : Nat
  deriving DecidableEq

/-- The words for a row that is too long. -/
def LongNumeral.message (e : LongNumeral) : String :=
  "Exceeds the limit (" ++ toString maxDigits ++ " digits) for integer string conversion: " ++
    "value has " ++ toString e.digits ++ " digits; use sys.set_int_max_str_digits() to " ++
    "increase the limit"

/-- **The number that a row of decimal digits denotes**, if the row is not too long. -/
def boundedNumeral (cs : List Char) : Except LongNumeral Nat :=
  if maxDigits < cs.length then .error ⟨cs.length⟩ else .ok (numeral cs)

end Citations.Text

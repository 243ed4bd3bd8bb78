/-
**The shortest decimal of a number.**

A number of double precision is written with as few digits as identify it.  Of the decimals with a
given number of digits only the two neighbours of the number can read back as it, and the nearer one
is preferred.  Where the point stands far from the digits, an exponent takes its place.

Main definitions:

* `Citations.Decimal` — a decimal, as its digits and the power of ten that they count;
* `Citations.Decimal.shortest` — the decimal with the fewest digits that reads back as a number;
* `Citations.Layout` — where an exponent is written, and how;
* `Citations.Binary64.shortest` — the text of a number in a given layout.
-/

import Citations.Number.Binary64

set_option relaxedAutoImplicit false
set_option autoImplicit false

namespace Citations

/-- A decimal: its digits, as a number, times a power of ten. -/
structure Decimal where
  digits : Nat
  exponent : Int
  deriving DecidableEq

namespace Decimal

/-! ### Finding the digits -/

/-- The number that a decimal reads back as, in units of double precision. -/
def units (d : Decimal) : Nat :=
  if 0 ≤ d.exponent then Binary64.ofRatio (d.digits * Binary64.tenTo d.exponent.toNat) 1
  else Binary64.ofRatio d.digits (Binary64.tenTo (-d.exponent).toNat)

/-- More places than there can be between the point and the first digit of a number. -/
def manyPlaces : Nat := 400

/-- How many digits a number other than zero has before the point; if it has none, the zeros behind
the point count as less than none. -/
def point (units : Nat) : Int :=
  ((Nat.toDigits 10 (units * Binary64.tenTo manyPlaces / Binary64.one)).length : Int) - manyPlaces

/-- The quotient of a number and a power of ten: numerator and denominator. -/
def quotient (units : Nat) (exponent : Int) : Nat × Nat :=
  if 0 ≤ exponent then (units, Binary64.one * Binary64.tenTo exponent.toNat)
  else (units * Binary64.tenTo (-exponent).toNat, Binary64.one)

/-- The two neighbours of a number among the decimals with a given number of digits, the nearer one
first. -/
def neighbours (units count : Nat) : List Decimal :=
  let exponent := point units - count
  let q := quotient units exponent
  let near := Binary64.roundDiv q.1 q.2
  let far := if near = q.1 / q.2 then near + 1 else q.1 / q.2
  [⟨near, exponent⟩, ⟨far, exponent⟩]

/-- **The decimal with a given number of digits that reads back as a number.** -/
def withDigits? (units count : Nat) : Option Decimal :=
  (neighbours units count).find? fun d => d.units == units

/-- The digits that always suffice. -/
def enough : Nat := 17

/-- **The decimal with the fewest digits that reads back as a number.** -/
def shortest (units : Nat) : Decimal :=
  ((List.range' 1 enough).findSome? (withDigits? units)).getD ⟨0, 0⟩

end Decimal

/-! ### Writing the digits -/

/-- Where an exponent is written: beyond so many digits before the point, and beyond so many zeros
behind it.  Its sign is always written, and it has two digits at least, or else it is bare. -/
structure Layout where
  mostDigits : Int
  mostZeros : Int
  isFullExponent : Bool

namespace Layout

/-- Digits without the zeros at their end. -/
def significant (n : Nat) : List Char :=
  ((Nat.toDigits 10 n).reverse.dropWhile (· = '0')).reverse

/-- Digits with a point behind the first `point` of them, and a digit on either side of it. -/
def positional (ds : List Char) (point : Int) : String :=
  if point ≤ 0 then "0." ++ String.ofList (List.replicate (-point).toNat '0' ++ ds)
  else
    let whole := ds.take point.toNat
    let fraction := ds.drop point.toNat
    String.ofList (whole ++ List.replicate (point.toNat - whole.length) '0') ++ "." ++
      (if fraction.isEmpty then "0" else String.ofList fraction)

/-- An exponent, behind the letter that marks it. -/
def exponent (l : Layout) (e : Int) : String :=
  let sign := if e < 0 then "-" else if l.isFullExponent then "+" else ""
  "e" ++ sign ++ Binary64.digits (if l.isFullExponent then 2 else 1) e.natAbs

/-- Digits with a point behind the first one, if there are more, and an exponent. -/
def scientific (l : Layout) (ds : List Char) (point : Int) : String :=
  let fraction := ds.drop 1
  String.ofList (ds.take 1) ++ (if fraction.isEmpty then "" else "." ++ String.ofList fraction) ++
    l.exponent (point - 1)

/-- The text of a decimal. -/
def write (l : Layout) (d : Decimal) : String :=
  let ds := significant d.digits
  let point := (Nat.toDigits 10 d.digits).length + d.exponent
  if ds.isEmpty then "0.0"
  else if -l.mostZeros ≤ point ∧ point ≤ l.mostDigits then positional ds point
  else l.scientific ds point

end Layout

/-- **The text of a number with the fewest digits that identify it.** -/
def Binary64.shortest (l : Layout) (x : Binary64) : String :=
  x.written fun units => l.write (.shortest units)

end Citations

/-
**Numbers of double precision.**

Scores and thresholds are numbers of double precision.  Such a number is a multiple of the smallest
positive one, 2 to the power −1074, so it is kept as that multiple: comparing is comparing natural
numbers, and nothing is rounded but where a quotient is taken.

Main definitions:

* `Citations.Binary64.one` — the multiple that is one;
* `Citations.Binary64.roundDiv` — a quotient rounded to the nearest natural number;
* `Citations.Binary64.ofRatio` — the multiple nearest to a quotient;
* `Citations.Binary64` — a number with its sign, or no number at all;
* `Citations.Binary64.ofDecimal`, `Citations.Binary64.ofQuotient` — the number nearest to a decimal
  or to a quotient;
* `Citations.Binary64.fixedUnits` — how many units are written with a fixed number of decimals;
* `Citations.Binary64.written` — how a number is written.

Main results:

* `Citations.Binary64.roundDiv_of_dvd` — an exact quotient is not rounded.
-/

set_option relaxedAutoImplicit false
set_option autoImplicit false

namespace Citations

/-- A number of double precision: a sign and a multiple of the smallest positive number.  What is
too large for that is infinite, and what is no number compares with nothing. -/
inductive Binary64 where
  | nan
  | infinite (negative : Bool)
  | finite (negative : Bool) (units : Nat)
  deriving DecidableEq

namespace Binary64

/-- Ten to a power: what a digit counts that has so many digits behind it. -/
def tenTo (places : Nat) : Nat := Nat.pow 10 places

/-- The exponent of the smallest positive number, up to its sign. -/
def scale : Nat := 1074

/-- The multiple of the smallest positive number that is one. -/
def one : Nat := Nat.pow 2 scale

/-! ### Rounding -/

/-- A quotient rounded to the nearest natural number, a half going to the even neighbour. -/
def roundDiv (num den : Nat) : Nat :=
  let q := num / den
  let r := num % den
  if den < 2 * r ∨ (2 * r = den ∧ q % 2 = 1) then q + 1 else q

/-- An exact quotient is not rounded. -/
theorem roundDiv_of_dvd {num den : Nat} (hd : 0 < den) (h : den ∣ num) :
    roundDiv num den = num / den := by
  have hr : num % den = 0 := Nat.mod_eq_zero_of_dvd h
  simp only [roundDiv, hr]
  split <;> omega

/-- The multiple that is nearest to a quotient among those with at most 53 binary digits. -/
def ofRatio (num den : Nat) : Nat :=
  let step := Nat.pow 2 (Nat.log2 (num * one / den) - 52)
  roundDiv (num * one) (den * step) * step

/-- The number of the given units, or an infinite one if they are too many. -/
def ofUnits (negative : Bool) (units : Nat) : Binary64 :=
  if Nat.pow 2 1024 * one ≤ units then .infinite negative else .finite negative units

/-- The number nearest to `mantissa` times ten to the power `exponent`.  One with very many places
on either side of the point is infinite or zero. -/
def ofDecimal (negative : Bool) (mantissa : Nat) (exponent : Int) : Binary64 :=
  let places := (Nat.toDigits 10 mantissa).length + exponent
  if mantissa = 0 ∨ places < -330 then .finite negative 0
  else if 330 < places then .infinite negative
  else
    .ofUnits negative
      (if 0 ≤ exponent then ofRatio (mantissa * tenTo exponent.toNat) 1
       else ofRatio mantissa (tenTo (-exponent).toNat))

/-- The number nearest to a quotient. -/
def ofQuotient (num : Int) (den : Nat) : Binary64 := .finite (num < 0) (ofRatio num.natAbs den)

/-! ### Order -/

/-- Whether a number is at most a multiple of the smallest positive number. -/
def atMost : Binary64 → Nat → Bool
  | .nan, _ => false
  | .infinite negative, _ => negative
  | .finite true _, _ => true
  | .finite false n, units => n ≤ units

/-- Whether a number is below zero. -/
def isBelowZero : Binary64 → Bool
  | .nan => false
  | .infinite negative => negative
  | .finite negative n => negative && n != 0

/-- The integer that a number is. -/
def toInt? : Binary64 → Option Int
  | .finite negative n =>
      if n % one = 0 then some (if negative then -(n / one : Nat) else (n / one : Nat)) else none
  | _ => none

/-- Whether a number is neither infinite nor no number at all. -/
def isFinite : Binary64 → Bool
  | .finite .. => true
  | _ => false

/-! ### Writing -/

/-- The decimal digits of a number, at least as many as asked for. -/
def digits (width n : Nat) : String :=
  let ds := Nat.toDigits 10 n
  String.ofList (List.replicate (width - ds.length) '0' ++ ds)

/-- A number of `places`-th parts of one, written with a decimal point. -/
def pointed (places n : Nat) : String :=
  digits 1 (n / tenTo places) ++ "." ++ digits places (n % tenTo places)

/-- A multiple of the smallest positive number written with a fixed number of decimals. -/
def fixedUnits (places units : Nat) : String :=
  pointed places (roundDiv (units * tenTo places) one)

/-- A number in words: its sign and what `magnitude` makes of its units. -/
def written (magnitude : Nat → String) : Binary64 → String
  | .nan => "nan"
  | .infinite negative => if negative then "-inf" else "inf"
  | .finite negative units => (if negative then "-" else "") ++ magnitude units

end Binary64

end Citations

/-
**Decimals as users write them.**

Main definitions:

* `Citations.Decimal.read?` — the number of double precision that is nearest to a written decimal.
-/

import Citations.Number.Binary64
import Citations.Text.Digit

set_option relaxedAutoImplicit false
set_option autoImplicit false

namespace Citations.Decimal

open Text

/-- A text with a sign in front or none: whether it is negative, and the text behind the sign. -/
def unsign : List Char → Bool × List Char
  | '-' :: cs => (true, cs)
  | '+' :: cs => (false, cs)
  | cs => (false, cs)

/-- The exponent that ends a decimal: nothing, or the letter `e` and a number with or without a
sign. -/
def exponent? : List Char → Option Int
  | [] => some 0
  | c :: cs =>
      let (negative, ds) := unsign cs
      if c.toLower = 'e' && !ds.isEmpty && ds.all Char.isDigit then
        some (if negative then -(numeral ds : Int) else numeral ds)
      else none

/-- A decimal without a sign: digits with a point before, between or behind them, and an
exponent. -/
def unsigned? (negative : Bool) (cs : List Char) : Option Binary64 :=
  let whole := cs.takeWhile Char.isDigit
  let (fraction, rest) :=
    match cs.dropWhile Char.isDigit with
    | '.' :: cs => (cs.takeWhile Char.isDigit, cs.dropWhile Char.isDigit)
    | rest => ([], rest)
  if whole.isEmpty && fraction.isEmpty then none
  else (exponent? rest).map fun e =>
    .ofDecimal negative (numeral (whole ++ fraction)) (e - fraction.length)

/-- The words for what is no decimal but a number all the same. -/
def named? (negative : Bool) (cs : List Char) : Option Binary64 :=
  let name := String.ofList (cs.map Char.toLower)
  if name = "inf" ∨ name = "infinity" then some (.infinite negative)
  else if name = "nan" then some .nan
  else none

/-- **The number that a text denotes.** -/
def read? (cs : List Char) : Option Binary64 :=
  let (negative, magnitude) := unsign cs
  (named? negative magnitude).or (unsigned? negative magnitude)

end Citations.Decimal

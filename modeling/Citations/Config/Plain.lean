/-
**Plain scalars.**

A scalar without quotes is a text, a number, a flag, a date or nothing at all, depending on what it
looks like.

Main definitions:

* `Citations.Yaml.integer?` — the integer that a scalar looks like;
* `Citations.Yaml.decimal?` — the number with a point that it looks like;
* `Citations.Yaml.plainValue` — the value that a plain scalar stands for.
-/

import Citations.Config.Timestamp
import Citations.Number.Decimal
import Citations.Text.Percent

set_option relaxedAutoImplicit false
set_option autoImplicit false

namespace Citations.Yaml

open Text

/-! ### Words -/

/-- The words for nothing. -/
def nullWords : List String := ["", "~", "null", "Null", "NULL"]

/-- The words for yes. -/
def trueWords : List String :=
  ["yes", "Yes", "YES", "true", "True", "TRUE", "on", "On", "ON"]

/-- The words for no. -/
def falseWords : List String :=
  ["no", "No", "NO", "false", "False", "FALSE", "off", "Off", "OFF"]

/-- The words that are kept for other purposes and have no value. -/
def reservedWords : List String := ["<<", "="]

/-! ### Integers -/

/-- Whether a character is a digit or an underscore between digits. -/
def isDigitOrGap (c : Char) : Bool := c.isDigit || c == '_'

/-- The number that digits of a base denote, underscores aside. -/
def based (base : Nat) (cs : List Char) : Nat :=
  (cs.filter (· ≠ '_')).foldl (fun n c => base * n + (hexValue? c).getD 0) 0

/-- The number that digits of a base denote behind a mark for the base; there must be some besides
the underscores. -/
def marked (base : Nat) (cs : List Char) : Except Fault Nat :=
  if cs.all (· = '_') then .error (.noDigits base) else .ok (based base cs)

/-- The number that decimal digits denote, underscores aside. -/
def decimalDigits (cs : List Char) : Except Fault Nat :=
  (boundedNumeral (cs.filter (· ≠ '_'))).mapError .tooLong

/-- Whether a text is a number below sixty with at most two digits. -/
def isSixtieth : List Char → Bool
  | [a] => a.isDigit
  | [a, b] => '0' ≤ a && a ≤ '5' && b.isDigit
  | _ => false

/-- The pieces of a text between its colons. -/
def colonPieces : List Char → List (List Char)
  | [] => [[]]
  | c :: cs =>
      if c = ':' then [] :: colonPieces cs
      else
        match colonPieces cs with
        | [] => [[c]]
        | p :: ps => (c :: p) :: ps

/-- An integer without a sign: binary, octal, hexadecimal, decimal, or in base sixty. -/
def natural? : List Char → Option (Except Fault Nat)
  | '0' :: 'b' :: cs =>
      if !cs.isEmpty && cs.all (fun c => c == '0' || c == '1' || c == '_') then some (marked 2 cs)
      else none
  | '0' :: 'x' :: cs =>
      if !cs.isEmpty && cs.all (fun c => (hexValue? c).isSome || c == '_') then
        some (marked 16 cs)
      else none
  | '0' :: cs =>
      if cs.all (fun c => ('0' ≤ c && c ≤ '7') || c == '_') then some (.ok (based 8 cs)) else none
  | c :: cs =>
      match colonPieces (c :: cs) with
      | first :: rest =>
          if c.isDigit && first.all isDigitOrGap && rest.all isSixtieth then
            some ((decimalDigits first).map fun n =>
              rest.foldl (fun n p => 60 * n + based 10 p) n)
          else none
      | [] => none
  | [] => none

/-- **The integer that a scalar looks like**, with a sign or without. -/
def integer? (cs : List Char) : Option (Except Fault Int) :=
  let (negative, magnitude) := Decimal.unsign cs
  (natural? magnitude).map fun r => r.map fun n => if negative then -(n : Int) else n

/-! ### Numbers with a point -/

/-- Whether a text is nothing, or an exponent with its sign. -/
def isExponent : List Char → Bool
  | [] => true
  | e :: sign :: ds =>
      (e == 'e' || e == 'E') && (sign == '+' || sign == '-') && !ds.isEmpty && ds.all Char.isDigit
  | _ => false

/-- Whether a text is a decimal: there must be a point, and an exponent must have a sign. -/
def isDecimal (cs : List Char) : Bool :=
  let magnitude := (Decimal.unsign cs).2
  let whole := magnitude.takeWhile isDigitOrGap
  match magnitude.dropWhile isDigitOrGap with
  | '.' :: rest =>
      let startsWithDigit (ds : List Char) : Bool := ds.head?.any Char.isDigit
      isExponent (rest.dropWhile isDigitOrGap) &&
        (startsWithDigit whole ||
          (whole.isEmpty && magnitude == cs && startsWithDigit (rest.takeWhile isDigitOrGap)))
  | _ => false

/-- The units of a product of two numbers that are given by their units. -/
def productUnits (a b : Nat) : Nat := Binary64.ofRatio (a * b) (Binary64.one * Binary64.one)

/-- The units of a number in base sixty, given those of its last place; the places before it come
last one first, and the first of them counts `base` times.  Every product and every sum is
rounded. -/
def addSixties : (base units : Nat) → List (List Char) → Nat
  | _, units, [] => units
  | base, units, p :: ps =>
      let place := productUnits (Binary64.ofRatio (based 10 p) 1) (Binary64.ofRatio base 1)
      addSixties (60 * base) (Binary64.ofRatio (units + place) Binary64.one) ps

/-- A number in base sixty: places with colons between them, and a point behind the last one. -/
def sixtieths? (negative : Bool) (magnitude : List Char) : Option Binary64 :=
  let fraction := magnitude.dropWhile (· ≠ '.')
  match colonPieces (magnitude.takeWhile (· ≠ '.')) with
  | first :: rest =>
      if first.head?.any Char.isDigit && first.all isDigitOrGap && rest.all isSixtieth &&
          !fraction.isEmpty && (fraction.drop 1).all isDigitOrGap then
        match rest.reverse ++ [first] with
        | last :: p :: ps =>
            match Decimal.read? ((last ++ fraction).filter (· ≠ '_')) with
            | some (.finite _ units) => some (.ofUnits negative (addSixties 60 units (p :: ps)))
            | _ => none
        | _ => none
      else none
  | [] => none

/-- **The number with a point that a scalar looks like**, or one of the words for what is not
finite. -/
def decimal? (cs : List Char) : Option Binary64 :=
  let (negative, magnitude) := Decimal.unsign cs
  let name := String.ofList magnitude
  if [".inf", ".Inf", ".INF"].contains name then some (.infinite negative)
  else if magnitude == cs && [".nan", ".NaN", ".NAN"].contains name then some .nan
  else if isDecimal cs then Decimal.read? (cs.filter (· ≠ '_'))
  else sixtieths? negative magnitude

/-! ### All values -/

/-- **The value that a plain scalar stands for.** -/
def plainValue (cs : List Char) : Except Fault Value :=
  let word := String.ofList cs
  if reservedWords.contains word then .error .malformed
  else if nullWords.contains word then .ok .null
  else if trueWords.contains word then .ok (.flag true)
  else if falseWords.contains word then .ok (.flag false)
  else
    match integer? cs, decimal? cs, Timestamp.read? cs with
    | some n, _, _ => n.map .integer
    | none, some x, _ => .ok (.decimal x)
    | none, none, some t => t.value
    | none, none, none => .ok (.text word)

end Citations.Yaml

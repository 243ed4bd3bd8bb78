/-
**Reading single fields.**

A field of a record is read leniently: a number can be given as a text, an integer as a decimal
without a fraction, and a flag as one of a few words.

Main definitions:

* `Citations.Value.toText`, `Citations.Value.toNumber`, `Citations.Value.toInteger`,
  `Citations.Value.toFlag` — what a value means as a text, a number, an integer or a flag;
* `Citations.Checked` — what was read from a record, with all problems;
* `Citations.Checked.optional`, `Citations.Checked.required` — reading one field of a record.
-/

import Citations.Input.Value
import Citations.Number.Decimal
import Citations.Text.Blank

set_option relaxedAutoImplicit false
set_option autoImplicit false

namespace Citations

open Text

/-! ### Numbers in texts -/

/-- The white space that may surround a number: all but the separators of records. -/
def isPadding (c : Char) : Bool := isBlank c && !(0x1c ≤ c.toNat && c.toNat ≤ 0x1f)

/-- A text without the padding at either end. -/
def unpad (cs : List Char) : List Char := strip isPadding cs

/-- Whether two underscores stand side by side. -/
def hasDoubleUnderscore : List Char → Bool
  | '_' :: '_' :: _ => true
  | _ :: cs => hasDoubleUnderscore cs
  | [] => false

/-- The text without underscores, of which each must stand between two other characters. -/
def withoutUnderscores? (cs : List Char) : Option (List Char) :=
  if !cs.contains '_' || cs.head? == some '_' || cs.getLast? == some '_' ||
      hasDoubleUnderscore cs then none
  else some (cs.filter (· ≠ '_'))

/-- What follows leading zeros, given the character before; the last zero stays before a point and
at the end.  A minus sign may stand behind zeros. -/
def behindZeros? (before : Char) : List Char → Option (List Char)
  | [] => some [before]
  | c :: cs =>
      if c = '0' ∨ c = '_' then behindZeros? c cs
      else if c.isDigit || c == '-' then some (c :: cs)
      else if c = '.' then some (before :: c :: cs)
      else none

/-- A number without leading zeros; a negative one stays as it is. -/
def withoutLeadingZeros? : List Char → Option (List Char)
  | [] => none
  | c :: cs =>
      if c = '0' then behindZeros? c cs
      else if c.isDigit || c == '-' then some (c :: cs)
      else none

/-- A number without a point and one or more zeros behind it. -/
def withoutZeroFraction (cs : List Char) : List Char :=
  match cs.dropWhile (· ≠ '.') with
  | '.' :: '0' :: zeros => if zeros.all (· = '0') then cs.takeWhile (· ≠ '.') else cs
  | _ => cs

/-- The digits of an integer without underscores, leading zeros and fraction. -/
def integerDigits? (cs : List Char) : Option (List Char) := do
  let cs := unpad cs
  let cs ← match cs with
    | '+' :: '-' :: _ => none
    | '+' :: rest => some rest
    | _ => some cs
  let cs := withoutZeroFraction (← withoutLeadingZeros? cs)
  return (withoutUnderscores? cs).getD cs

/-- The integer of the given digits, with a minus sign or none. -/
def integerOf? (digits : List Char) : Except Problem Int :=
  let (negative, ds) := match digits with
    | '-' :: ds => (true, ds)
    | ds => (false, ds)
  if ds.isEmpty || !ds.all Char.isDigit then .error .unreadableInteger
  else if maxDigits < ds.length then .error .hugeInteger
  else .ok (if negative then -(numeral ds : Int) else numeral ds)

/-! ### What a value means -/

namespace Value

/-- What a value means as a text. -/
def toText : Value → Except Problem String
  | .text s => .ok s
  | _ => .error .notText

/-- **What a value means as a number.** -/
def toNumber : Value → Except Problem Binary64
  | .decimal x => .ok x
  | .flag b => .ok (.finite false (if b then Binary64.one else 0))
  | .integer n =>
      match Binary64.ofDecimal (n < 0) n.natAbs 0 with
      | .infinite _ => .error .notNumber
      | x => .ok x
  | .text s =>
      match (Decimal.read? (unpad s.toList)).or
          ((withoutUnderscores? s.toList).bind Decimal.read?) with
      | some x => .ok x
      | none => .error .unreadableNumber
  | _ => .error .notNumber

/-- Integers from here on take more than 64 bits with their sign. -/
def wordBound : Nat := Nat.pow 2 63

/-- The integer that a decimal is, as long as it takes at most 64 bits. -/
def integerOfDecimal (x : Binary64) : Except Problem Int :=
  if x.isFinite then
    match x.toInt? with
    | none => .error .fraction
    | some n => if n.natAbs < wordBound then .ok n else .error .hugeInteger
  else .error .infinite

/-- **What a value means as an integer.** -/
def toInteger : Value → Except Problem Int
  | .integer n => .ok n
  | .flag b => .ok (if b then 1 else 0)
  | .decimal x => integerOfDecimal x
  | .text s =>
      match integerDigits? s.toList with
      | none => .error .unreadableInteger
      | some digits => integerOf? digits
  | _ => .error .notInteger

/-- The words that mean yes, and those that mean no. -/
def flagWords : List String × List String :=
  (["1", "t", "y", "on", "yes", "true"], ["0", "f", "n", "no", "off", "false"])

/-- The flag that an integer stands for. -/
def flagOfInteger (n : Int) : Except Problem Bool :=
  if n = 1 then .ok true else if n = 0 then .ok false else .error .unreadableFlag

/-- **What a value means as a flag.** -/
def toFlag : Value → Except Problem Bool
  | .flag b => .ok b
  | .integer n => if n.natAbs < wordBound then flagOfInteger n else .error .notFlag
  | .decimal x =>
      match integerOfDecimal x with
      | .ok n => flagOfInteger n
      | .error _ => .error .notFlag
  | .text s =>
      let word := String.ofList (s.toList.map Char.toLower)
      if flagWords.1.contains word then .ok true
      else if flagWords.2.contains word then .ok false
      else .error .unreadableFlag
  | _ => .error .notFlag

end Value

/-! ### Fields of a record -/

/-- What was read from a record, which counts only if there are no problems. -/
structure Checked (α : Type) where
  value : α
  problems : List FieldProblem

namespace Checked

variable {α : Type}

/-- The value of a field, of which a later one replaces an earlier one. -/
def lookUp? (fields : List (String × Value)) (name : String) : Option Value :=
  (fields.reverse.find? fun f => f.1 = name).map Prod.snd

/-- What a value means for a field; in place of what it cannot mean stands `fallback`. -/
def ofValue (name : String) (fallback : α) (read : Value → Except Problem α) (v : Value) :
    Checked α :=
  match read v with
  | .ok a => ⟨a, []⟩
  | .error p => ⟨fallback, [⟨[name], p, v⟩]⟩

/-- **A field that may be absent.** -/
def optional (fields : List (String × Value)) (name : String) (fallback : α)
    (read : Value → Except Problem α) : Checked α :=
  match lookUp? fields name with
  | none => ⟨fallback, []⟩
  | some v => ofValue name fallback read v

/-- **A field that must be there.** -/
def required (fields : List (String × Value)) (name : String) (fallback : α)
    (read : Value → Except Problem α) : Checked α :=
  match lookUp? fields name with
  | none => ⟨fallback, [⟨[name], .missing, .record fields⟩]⟩
  | some v => ofValue name fallback read v

/-- The value, if there are no problems. -/
def toExcept (c : Checked α) : Except (List FieldProblem) α :=
  if c.problems.isEmpty then .ok c.value else .error c.problems

end Checked

end Citations

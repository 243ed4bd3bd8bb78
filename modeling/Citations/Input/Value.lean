/-
**Values from outside.**

Settings and verdicts that come from outside are records of values of any kind.  A value that does
not fit its field gives a problem, and all problems of a record are reported together.

Main definitions:

* `Citations.Value` — the values that a field can have;
* `Citations.Problem` — what can be wrong with a field;
* `Citations.FieldProblem` — what is wrong, and where;
* `Citations.FieldProblem.report` — the words for all problems of a record.
-/

import Citations.Calendar
import Citations.Number.Shortest
import Citations.Text.Quoted

set_option relaxedAutoImplicit false
set_option autoImplicit false

namespace Citations

open Text

/-- The values that a field can have. -/
inductive Value where
  | null
  | flag (b : Bool)
  | integer (n : Int)
  | decimal (x : Binary64)
  | text (s : String)
  | record (fields : List (String × Value))
  | day (d : Calendar.Day)
  | time (t : Calendar.Time)
  /-- A list or anything else that no field can have. -/
  | other

/-- What can be wrong with a field. -/
inductive Problem where
  /-- The field must be there. -/
  | missing
  /-- The field must not be there. -/
  | unexpected
  | notText
  | emptyText
  /-- The text is none of the allowed ones, which the pattern shows. -/
  | noMatch (pattern : String)
  /-- The text is not the only one that is allowed. -/
  | notLiteral (allowed : String)
  | notNumber
  | unreadableNumber
  | notInteger
  | unreadableInteger
  /-- The integer has too many digits. -/
  | hugeInteger
  /-- The number is not an integer. -/
  | fraction
  | infinite
  | notFlag
  | unreadableFlag
  | below (least : Nat)
  | above (most : Nat)
  /-- The value is not a record, or one of the named kind. -/
  | notRecord (kind : String)
  deriving DecidableEq

/-- The name of a kind of problem. -/
def Problem.code : Problem → String
  | .missing => "missing"
  | .unexpected => "extra_forbidden"
  | .notText => "string_type"
  | .emptyText => "string_too_short"
  | .noMatch _ => "string_pattern_mismatch"
  | .notLiteral _ => "literal_error"
  | .notNumber => "float_type"
  | .unreadableNumber => "float_parsing"
  | .notInteger => "int_type"
  | .unreadableInteger => "int_parsing"
  | .hugeInteger => "int_parsing_size"
  | .fraction => "int_from_float"
  | .infinite => "finite_number"
  | .notFlag => "bool_type"
  | .unreadableFlag => "bool_parsing"
  | .below _ => "greater_than_equal"
  | .above _ => "less_than_equal"
  | .notRecord _ => "model_type"

/-- The words for a problem. -/
def Problem.message : Problem → String
  | .missing => "Field required"
  | .unexpected => "Extra inputs are not permitted"
  | .notText => "Input should be a valid string"
  | .emptyText => "String should have at least 1 character"
  | .noMatch pattern => "String should match pattern " ++ "'" ++ pattern ++ "'"
  | .notLiteral allowed => "Input should be " ++ "'" ++ allowed ++ "'"
  | .notNumber => "Input should be a valid number"
  | .unreadableNumber => "Input should be a valid number, unable to parse string as a number"
  | .notInteger => "Input should be a valid integer"
  | .unreadableInteger => "Input should be a valid integer, unable to parse string as an integer"
  | .hugeInteger => "Unable to parse input string as an integer, exceeded maximum size"
  | .fraction => "Input should be a valid integer, got a number with a fractional part"
  | .infinite => "Input should be a finite number"
  | .notFlag => "Input should be a valid boolean"
  | .unreadableFlag => "Input should be a valid boolean, unable to interpret input"
  | .below least => "Input should be greater than or equal to " ++ toString least
  | .above most => "Input should be less than or equal to " ++ toString most
  | .notRecord kind => "Input should be a valid dictionary or instance of " ++ kind

/-- What is wrong with a field: the names that lead to it, the problem, and the value given. -/
structure FieldProblem where
  path : List String
  problem : Problem
  given : Value

/-! ### Words for values -/

/-- The name of the kind of a value. -/
def Value.kind : Value → String
  | .null => "NoneType"
  | .flag _ => "bool"
  | .integer _ => "int"
  | .decimal _ => "float"
  | .text _ => "str"
  | .record _ => "dict"
  | .day _ => "date"
  | .time _ => "datetime"
  | .other => "list"

/-- Messages write an exponent for numbers from ten to the power 16 on, and for those below one
ten-thousandth. -/
def Value.layout : Layout := ⟨16, 3, true⟩

/-- A value as it is repeated in a message. -/
def Value.written : Value → String
  | .null => "None"
  | .flag b => if b then "True" else "False"
  | .integer n => toString n
  | .decimal x => x.shortest Value.layout
  | .text s => quote s
  | .record _ => "\x7b...\x7d"
  | .day d => d.written
  | .time t => t.written
  | .other => "[...]"

/-- The number of bytes that a message repeats in full. -/
def abridgedSize : Nat := 50

/-- The longest start of a text that has at most a given number of bytes. -/
def startWithin : (bytes : Nat) → List Char → List Char
  | _, [] => []
  | bytes, c :: cs => if c.utf8Size ≤ bytes then c :: startWithin (bytes - c.utf8Size) cs else []

/-- A text with its middle left out if it is long. -/
def abridge (s : String) : String :=
  if abridgedSize < s.utf8ByteSize then
    String.ofList (startWithin 25 s.toList) ++ "..." ++
      String.ofList (startWithin 24 s.toList.reverse).reverse
  else s

/-! ### Reports -/

/-- The two lines for one field. -/
def FieldProblem.lines (p : FieldProblem) : String :=
  "\n" ++ ".".intercalate p.path ++ "\n  " ++ p.problem.message ++ " [type=" ++ p.problem.code ++
    ", input_value=" ++ abridge p.given.written ++ ", input_type=" ++ p.given.kind ++ "]"

/-- **The words for all problems of a record.** -/
def FieldProblem.report (what : String) (ps : List FieldProblem) : String :=
  let count := toString ps.length ++ " validation error" ++ (if ps.length = 1 then "" else "s")
  count ++ " for " ++ what ++ String.join (ps.map FieldProblem.lines)

end Citations

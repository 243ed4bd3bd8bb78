/-
**Verdicts from outside.**

A verdict can be given as a record, whose fields depend on its status.  No other fields are allowed.

Main definitions:

* `Citations.Verdict.ofFields` — the verdict of a status that a record stands for.
-/

import Citations.Input.Scalar
import Citations.Link.Basic

set_option relaxedAutoImplicit false
set_option autoImplicit false

namespace Citations

/-- How a path should be written instead, as a record. -/
def PathConversion.ofFields (fields : List (String × Value)) : Checked PathConversion :=
  let kind := Checked.optional fields "type" () fun v =>
    match v with
    | .text "path-conversion" => .ok ()
    | _ => .error (.notLiteral "path-conversion")
  let written := Checked.required fields "original" "" Value.toText
  let recommended := Checked.required fields "recommended" "" Value.toText
  ⟨⟨written.value, recommended.value⟩,
    kind.problems ++ written.problems ++ recommended.problems⟩

namespace Verdict

/-- The status of a link. -/
inductive Status where
  | valid
  | warning
  | error
  deriving DecidableEq

/-- A text that may be absent. -/
def readText? : Value → Except Problem (Option String)
  | .null => .ok none
  | v => v.toText.map some

/-- A text that is not empty. -/
def readNonempty (v : Value) : Except Problem String := do
  let s ← v.toText
  if s = "" then .error .emptyText else .ok s

/-- The conversion that is given as a record. -/
def conversion? (fields : List (String × Value)) : Option (Checked PathConversion) :=
  match Checked.lookUp? fields "path_conversion" with
  | some (.record inner) => some (PathConversion.ofFields inner)
  | _ => none

/-- The field with a conversion, which is a record of its own. -/
def readConversion (fields : List (String × Value)) : Checked PathConversion :=
  match conversion? fields with
  | some c => ⟨c.value, []⟩
  | none =>
      Checked.required fields "path_conversion" ⟨"", ""⟩ fun _ =>
        .error (.notRecord "PathConversion")

/-- The names of the fields that go with a status. -/
def fieldNames : Status → List String
  | .valid => ["status", "resolved_path"]
  | .warning => ["status", "error", "path_conversion", "resolved_path", "suggestion"]
  | .error => ["status", "error", "suggestion"]

/-- The problems with fields that do not go with a status. -/
def unexpected (status : Status) (fields : List (String × Value)) : List FieldProblem :=
  (fields.filter fun f => !(fieldNames status).contains f.1).map fun f =>
    ⟨[f.1], .unexpected, f.2⟩

/-- The verdict of a status, with the problems of the fields that go with it. -/
def checked (status : Status) (fields : List (String × Value)) : Checked Verdict :=
  let suggestion := Checked.optional fields "suggestion" none readText?
  match status with
  | .valid =>
      let resolved := Checked.optional fields "resolved_path" none readText?
      ⟨.valid resolved.value, resolved.problems⟩
  | .warning =>
      let problem := Checked.required fields "error" "" readNonempty
      let conversion := readConversion fields
      let resolved := Checked.required fields "resolved_path" "" Value.toText
      ⟨.warning problem.value conversion.value resolved.value suggestion.value,
        problem.problems ++ conversion.problems ++ resolved.problems ++ suggestion.problems⟩
  | .error =>
      let problem := Checked.required fields "error" "" readNonempty
      ⟨.error problem.value suggestion.value, problem.problems ++ suggestion.problems⟩

/-- **The verdict of a status that a record stands for.**  A conversion is looked at first, and its
problems are reported alone. -/
def ofFields (status : Status) (fields : List (String × Value)) :
    Except (List FieldProblem) Verdict := do
  if let some c := conversion? fields then let _ ← c.toExcept
  let c := checked status fields
  Checked.toExcept ⟨c.value, c.problems ++ unexpected status fields⟩

end Verdict

end Citations

/-
**Verdicts as a list to be read.**

Main definitions:

* `Citations.Output.listing` — the lines for the checked links of a document.
-/

import Citations.Summary

set_option relaxedAutoImplicit false
set_option autoImplicit false

namespace Citations.Output

/-- The mark of a verdict. -/
def mark : Verdict → String
  | .valid _ => "OK"
  | .warning .. => "WARN"
  | .error .. => "ERROR"

/-- The line for a suggestion, unless there is none or an empty one. -/
def suggestionLines : Option String → List String
  | none | some "" => []
  | some s => ["      Suggestion: " ++ s]

/-- The lines below a link, if something is wrong with it. -/
def detailLines : Verdict → List String
  | .valid _ => []
  | .warning problem conversion _ suggestion =>
      ["      " ++ problem] ++ suggestionLines suggestion ++
        ["      Use: " ++ conversion.recommended]
  | .error problem suggestion => ["      " ++ problem] ++ suggestionLines suggestion

/-- The lines for a link. -/
def linkLines (l : Link) : List String :=
  match l.verdict with
  | none => []
  | some v =>
      ("  [" ++ mark v ++ "] line " ++ toString l.line ++ ": " ++ l.fullMatch) :: detailLines v

/-- The line with the numbers of verdicts. -/
def summaryLine (s : Summary) : String :=
  "Summary: " ++ toString s.total ++ " total, " ++ toString s.valid ++ " valid, " ++
    toString s.warning ++ " warnings, " ++ toString s.error ++ " errors"

/-- **The lines for the checked links of a document.** -/
def listing (path : String) (ls : List Link) : String :=
  String.join ((["Citation validation: " ++ path] ++ ls.flatMap linkLines ++
    [summaryLine (Summary.ofLinks ls)]).map (· ++ "\n"))

end Citations.Output

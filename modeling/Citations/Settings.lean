/-
**Settings.**

Main definitions:

* `Citations.Settings` — the choices that the user has;
* `Citations.Settings.fieldNames` — their names;
* `Citations.Settings.ofFields` — the settings that a record of values stands for.
-/

import Citations.Document.Suggestion
import Citations.Input.Scalar

set_option relaxedAutoImplicit false
set_option autoImplicit false

namespace Citations

/-- The choices that the user has. -/
structure Settings where
  appName : String := "mdcite"
  /-- How similar an anchor must be to be suggested. -/
  similarityThreshold : Binary64 := .finite false (Binary64.one / 2)
  /-- How many anchors are suggested at most. -/
  maxSuggestions : Int := 5
  /-- Whether links to whole files are extracted. -/
  fullFiles : Bool := false
  /-- The directory in which files are found by name. -/
  scopeDir : Option String := none
  logLevel : String := "WARNING"
  /-- The name of the Markdown dialect. -/
  parserConfig : String := "gfm-like"
  deriving DecidableEq

namespace Settings

/-- The names of the settings, in order. -/
def fieldNames : List String :=
  ["app_name", "similarity_threshold", "max_suggestions", "full_files", "scope_dir", "log_level",
    "parser_config"]

/-- How much is said about the work while it is going on. -/
def logLevels : List String := ["DEBUG", "INFO", "WARNING", "ERROR", "CRITICAL"]

/-- A threshold, which lies between zero and one.  What is no number at all does not lie below
one. -/
def readThreshold (v : Value) : Except Problem Binary64 := do
  let x ← v.toNumber
  if !x.atMost Binary64.one then .error (.above 1)
  else if x.isBelowZero then .error (.below 0)
  else .ok x

/-- A number of suggestions, which is at least one. -/
def readLimit (v : Value) : Except Problem Int := do
  let n ← v.toInteger
  if n < 1 then .error (.below 1) else .ok n

/-- A text that may be absent. -/
def readOptionalText : Value → Except Problem (Option String)
  | .null => .ok none
  | v => v.toText.map some

/-- One of the levels. -/
def readLevel (v : Value) : Except Problem String := do
  let s ← v.toText
  if logLevels.contains s then .ok s
  else .error (.noMatch ("^(" ++ "|".intercalate logLevels ++ ")$"))

/-- **The settings that a record of values stands for.**  A value for a setting that does not exist
is ignored. -/
def ofFields (fields : List (String × Value)) : Except (List FieldProblem) Settings :=
  let d : Settings := {}
  let appName := Checked.optional fields "app_name" d.appName Value.toText
  let threshold :=
    Checked.optional fields "similarity_threshold" d.similarityThreshold readThreshold
  let limit := Checked.optional fields "max_suggestions" d.maxSuggestions readLimit
  let fullFiles := Checked.optional fields "full_files" d.fullFiles Value.toFlag
  let scope := Checked.optional fields "scope_dir" d.scopeDir readOptionalText
  let level := Checked.optional fields "log_level" d.logLevel readLevel
  let parser := Checked.optional fields "parser_config" d.parserConfig Value.toText
  Checked.toExcept
    { value := ⟨appName.value, threshold.value, limit.value, fullFiles.value, scope.value,
        level.value, parser.value⟩
      problems := appName.problems ++ threshold.problems ++ limit.problems ++
        fullFiles.problems ++ scope.problems ++ level.problems ++ parser.problems }

/-- What is suggested for a missing anchor. -/
def policy (s : Settings) : SuggestionPolicy := ⟨s.similarityThreshold, s.maxSuggestions⟩

end Settings

end Citations

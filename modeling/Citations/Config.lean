/-
**Configuration.**

Settings are read from a configuration file in the working directory, then from the environment, and
last from the command line; what comes later prevails.

The file can hold something else than named settings.  Nobody looks at what it holds before it is
used like a record of settings, and that is where the exception comes from.

Main definitions:

* `Citations.Config.Failure` — why there are no settings;
* `Citations.Config.Failure.raised` — the exception that is raised then;
* `Citations.Config.Reading` — what reads the text of the file;
* `Citations.Config.loadWith`, `Citations.Config.load` — the settings that are in force, whatever
  reads the file, and when it is read by the rules of the format.

Main results:

* `Citations.Config.isValueError_misuse` — what is no record of settings is not found out as a value
  that is not acceptable.
-/

import Citations.Config.Content
import Citations.FileTree.Text
import Citations.Settings

set_option relaxedAutoImplicit false
set_option autoImplicit false

namespace Citations.Config

/-- The name of the configuration file. -/
def fileName : String := "config.yaml"

/-- Why there are no settings. -/
inductive Failure where
  /-- The file cannot be read. -/
  | unreadable (cause : ReadCause)
  /-- The text of the file has no content. -/
  | noContent (refusal : Yaml.Refusal)
  /-- The file holds something else than named settings. -/
  | notSettings (e : Raised)
  /-- Some values are not acceptable. -/
  | invalid (problems : List FieldProblem)

/-- **The exception for a failure.**  A text that breaks the rules of the format is one of the
values that are not acceptable. -/
def Failure.raised : Failure → Raised
  | .unreadable (.fault f path) => ⟨f.kind, (ReadCause.fault f path).message, false⟩
  | .unreadable (.encoding f) => ⟨"UnicodeDecodeError", (ReadCause.encoding f).message, true⟩
  | .noContent .malformed => ⟨"ValueError", "Invalid " ++ fileName, true⟩
  | .noContent (.raised e) | .notSettings e => e
  | .invalid ps => ⟨"ValidationError", FieldProblem.report "Settings" ps, true⟩

/-! ### The file -/

/-- A field whose name must be a text. -/
def field? : Value × Value → Option (String × Value)
  | (.text name, v) => some (name, v)
  | _ => none

/-- An exception for a value of a kind that is not asked for. -/
def typeError (message : String) : Raised := ⟨"TypeError", message, false⟩

/-- What comes of using something that is no entries like a record of settings: putting in what the
environment holds, then the options, and last giving its entries to the settings. -/
def misuse (kind : Yaml.Kind) (hasEnvironment hasOptions : Bool) : Raised :=
  if hasEnvironment then
    typeError (if kind = .list then "list indices must be integers or slices, not str"
      else "'" ++ kind.name ++ "' object does not support item assignment")
  -- a set takes any names in
  else if hasOptions && kind ≠ .set then
    ⟨"AttributeError", "'" ++ kind.name ++ "' object has no attribute 'update'", false⟩
  else
    typeError ("mdcite.config.Settings() argument after ** must be a mapping, not " ++ kind.name)

/-- What is no record of settings is not found out as a value that is not acceptable. -/
@[simp] theorem isValueError_misuse (kind : Yaml.Kind) (hasEnvironment hasOptions : Bool) :
    (misuse kind hasEnvironment hasOptions).isValueError = false := by
  unfold misuse
  split
  · rfl
  · split <;> rfl

/-- The fields that a file holds.  What counts as nothing holds none. -/
def fieldsOf (hasEnvironment hasOptions : Bool) :
    Yaml.Content → Except Failure (List (String × Value))
  | .other kind isVoid =>
      if isVoid then .ok [] else .error (.notSettings (misuse kind hasEnvironment hasOptions))
  | .entries es =>
      match es.mapM field? with
      | some fields => .ok fields
      | none => .error (.notSettings (typeError "keywords must be strings"))

/-- What reads the text of a configuration file. -/
abbrev Reading := List Char → Except Yaml.Refusal Yaml.Content

/-- The fields of the configuration file; no file, no fields.  A name that is too long on the way to
the file does not mean that there is none. -/
def fileFields (read : Reading) (t : FileTree) (hasEnvironment hasOptions : Bool) :
    Except Failure (List (String × Value)) :=
  match t.locate fileName with
  | .error .nameTooLong => .error (.unreadable (.fault .nameTooLong fileName))
  | .error _ => .ok []
  | .ok _ =>
      match t.readText fileName with
      | .error e => .error (.unreadable e.cause)
      | .ok s => do
          fieldsOf hasEnvironment hasOptions (← (read s.toList).mapError .noContent)

/-! ### The environment and the command line -/

/-- The variable of the environment that a setting is taken from. -/
def variableName (setting : String) : String :=
  "MDCITE_" ++ String.ofList (setting.toList.map Char.toUpper)

/-- The fields that the environment holds; an empty variable counts as none. -/
def environmentFields (env : List (String × String)) : List (String × Value) :=
  Settings.fieldNames.filterMap fun name =>
    ((env.find? fun e => e.1 = variableName name && e.2 != "").map fun e => (name, .text e.2))

/-- The options that were given. -/
def givenFields (options : List (String × Value)) : List (String × Value) :=
  options.filter fun f => match f.2 with
    | .null => false
    | _ => true

/-- The settings that are in force, whatever reads the file. -/
def loadWith (read : Reading) (t : FileTree) (env : List (String × String))
    (options : List (String × Value)) : Except Failure Settings :=
  match fileFields read t (!(environmentFields env).isEmpty) (!options.isEmpty) with
  | .error e => .error e
  | .ok fields =>
      match Settings.ofFields (fields ++ environmentFields env ++ givenFields options) with
      | .ok s => .ok s
      | .error ps => .error (.invalid ps)

/-- What reads the file by the rules of the format. -/
def reading : Reading := fun text => (Yaml.read text).mapError Yaml.Fault.refusal

/-- **The settings that are in force.** -/
def load (t : FileTree) (env : List (String × String)) (options : List (String × Value)) :
    Except Failure Settings :=
  loadWith reading t env options

end Citations.Config

/-
**The command line.**

There are five commands: `validate`, `ast`, `extract links`, `extract header` and `extract file`.
Options may stand anywhere behind the command.  A run ends with an exit code and with what goes to
the two outputs; links in error make it 1, and what keeps the command from being carried out makes
it 2.  But not every failure is caught, and then the program ends with an exception.

Main definitions:

* `Citations.CommandLine.Command` — the commands with their arguments;
* `Citations.CommandLine.Command.ofArguments` — reads the arguments of the program;
* `Citations.CommandLine.Command.options` — the settings that a command asks for;
* `Citations.CommandLine.Command.runWith`, `Citations.CommandLine.Command.run` — carries out a
  command, whatever reads the configuration file, and when it is read by the rules of the format;
* `Citations.CommandLine.Failure` — why a command is not carried out;
* `Citations.CommandLine.Success` — what comes of a command that is carried out;
* `Citations.CommandLine.run` — carries out the command that the arguments name;
* `Citations.CommandLine.Ending` — how the program ends;
* `Citations.CommandLine.Failure.ending` — how it ends after a failure.
-/

import Citations.Config
import Citations.Output.ControlSequence
import Citations.Output.Listing
import Citations.Output.Record
import Citations.Workflow

set_option relaxedAutoImplicit false
set_option autoImplicit false

namespace Citations.CommandLine

/-! ### Commands -/

/-- The commands with their arguments. -/
inductive Command where
  | validate (path : String) (scope : Option String) (format : String) (lines : Option String)
  | outline (path : String)
  | extractLinks (path : String) (scope : Option String) (fullFiles : Bool)
  | extractHeader (path heading : String) (scope : Option String)
  | extractFile (path : String) (scope : Option String)
  deriving DecidableEq

/-- The arguments of a command, sorted: options with their values, flags, and what is left. -/
structure Arguments where
  options : List (String × String)
  flags : List String
  places : List String

/-- The value of an option, of which the last one counts. -/
def Arguments.option? (a : Arguments) (name : String) : Option String :=
  (a.options.reverse.find? fun o => o.1 = name).map Prod.snd

/-- An option that has its value behind an equals sign. -/
def splitOption (arg : String) : String × Option String :=
  let cs := arg.toList
  match cs.dropWhile (· ≠ '=') with
  | '=' :: value => (String.ofList (cs.takeWhile (· ≠ '=')), some (String.ofList value))
  | _ => (arg, none)

/-- Whether an argument is an option: it starts with a hyphen and goes on. -/
def isOption (arg : String) : Bool := "-".toList.isPrefixOf arg.toList && 2 ≤ arg.length

/-- **Sorts arguments**, given the options that take a value and the flags.  Behind two hyphens
there are no options. -/
def sortArguments (valued flags : List String) : List String → Option Arguments
  | [] => some ⟨[], [], []⟩
  | "--" :: rest => some ⟨[], [], rest⟩
  | arg :: rest =>
      if isOption arg then
        match splitOption arg with
        | (name, some value) =>
            if valued.contains name then
              (sortArguments valued flags rest).map fun a =>
                { a with options := (name, value) :: a.options }
            else none
        | (name, none) =>
            if flags.contains name then
              (sortArguments valued flags rest).map fun a => { a with flags := name :: a.flags }
            else if valued.contains name then
              match rest with
              | [] => none
              | value :: rest =>
                  (sortArguments valued flags rest).map fun a =>
                    { a with options := (name, value) :: a.options }
            else none
      else
        (sortArguments valued flags rest).map fun a => { a with places := arg :: a.places }

namespace Command

/-- The arguments of `validate`. -/
def validate? (args : List String) : Option Command := do
  let a ← sortArguments ["--scope", "--format", "--lines"] [] args
  match a.places with
  | [path] =>
      some (.validate path (a.option? "--scope") ((a.option? "--format").getD "text")
        (a.option? "--lines"))
  | _ => none

/-- The arguments of `ast`. -/
def outline? (args : List String) : Option Command := do
  let a ← sortArguments [] [] args
  match a.places with
  | [path] => some (.outline path)
  | _ => none

/-- The arguments without two hyphens in front of them, behind which there are no options. -/
def behindHyphens : List String → List String
  | "--" :: args => args
  | args => args

/-- The arguments of `extract`, of which the first says what is to be extracted. -/
def extract? : List String → Option Command
  | "links" :: args => do
      let a ← sortArguments ["--scope"] ["--full-files"] args
      match a.places with
      | [path] =>
          some (.extractLinks path (a.option? "--scope") (a.flags.contains "--full-files"))
      | _ => none
  | "header" :: args => do
      let a ← sortArguments ["--scope"] [] args
      match a.places with
      | [path, heading] => some (.extractHeader path heading (a.option? "--scope"))
      | _ => none
  | "file" :: args => do
      let a ← sortArguments ["--scope"] [] args
      match a.places with
      | [path] => some (.extractFile path (a.option? "--scope"))
      | _ => none
  | _ => none

/-- **Reads the arguments of the program.** -/
def ofArguments (args : List String) : Option Command :=
  match behindHyphens args with
  | "validate" :: args => validate? args
  | "ast" :: args => outline? args
  | "extract" :: args => extract? (behindHyphens args)
  | _ => none

end Command

/-! ### Carrying out a command -/

/-- Why a command is not carried out. -/
inductive Failure where
  /-- The arguments are wrong. -/
  | usage
  /-- There is no such form of output. -/
  | unknownFormat (format : String)
  /-- There are no settings. -/
  | config (e : Config.Failure)
  /-- The range of lines is wrong. -/
  | lines (e : LineRange.Error)
  /-- The run has no result; whether the command catches exceptions for values that are not
  acceptable. -/
  | run (guarded : Bool) (e : Workflow.Failure)

/-- What comes of a command that is carried out: its output, and whether all is well. -/
structure Success where
  output : String
  allWell : Bool

/-- The scope as an option. -/
def scopeOption (scope : Option String) : String × Value :=
  ("scope_dir", (scope.map Value.text).getD .null)

/-- The settings that a command asks for. -/
def Command.options : Command → List (String × Value)
  | .outline _ => []
  | .extractLinks _ scope fullFiles =>
      [scopeOption scope, ("full_files", if fullFiles then .flag true else .null)]
  | .validate _ scope _ _ | .extractHeader _ _ scope | .extractFile _ scope => [scopeOption scope]

/-- The settings for a command. -/
def Command.settings (read : Config.Reading) (t : FileTree) (env : List (String × String))
    (c : Command) : Except Failure Settings :=
  (Config.loadWith read t env c.options).mapError .config

/-- The range of lines, if one is given that is not empty. -/
def lineRange : Option String → Except Failure (Option LineRange)
  | none | some "" => .ok none
  | some written => ((LineRange.parse written).map some).mapError .lines

/-- The output of an extraction. -/
def extracted (e : Extraction) : Success :=
  ⟨(Output.extraction e).render JsonValue.escapeControl 0 ++ "\n", !e.blocks.isEmpty⟩

/-- The output of a check. -/
def checked (format path : String) (ls : List Link) : Success :=
  { output :=
      if format = "json" then (Output.checked ls).render JsonValue.escapeControl 0 ++ "\n"
      else Output.listing path ls
    allWell := (Summary.ofLinks ls).error = 0 }

/-- Carries out a command, whatever reads the configuration file. -/
def Command.runWith (read : Config.Reading) (t : FileTree) (env : List (String × String))
    (c : Command) : Except Failure Success :=
  match c with
  | .validate path _ format lines => do
      if format ≠ "text" ∧ format ≠ "json" then throw (.unknownFormat format)
      let s ← c.settings read t env
      let range ← lineRange lines
      let ls ← (Workflow.validate t s none path).mapError (.run false)
      return checked format path (Workflow.onLines range ls)
  | .outline path => do
      let s ← c.settings read t env
      let d ← (Workflow.outline t s path).mapError (.run false)
      return ⟨(Output.outline d).render JsonValue.escapeWide 0 ++ "\n", true⟩
  | .extractLinks path _ _ => do
      let s ← c.settings read t env
      return extracted (← (Workflow.extractLinks t s none path).mapError (.run false))
  | .extractHeader path heading _ => do
      let s ← c.settings read t env
      return extracted (← (Workflow.extractSection t s none path heading).mapError (.run true))
  | .extractFile path _ => do
      let s ← c.settings read t env
      return extracted (← (Workflow.extractFile t s none path).mapError (.run true))

/-- **Carries out a command.** -/
def Command.run (t : FileTree) (env : List (String × String)) (c : Command) :
    Except Failure Success :=
  c.runWith Config.reading t env

/-- **Carries out the command that the arguments of the program name.** -/
def run (t : FileTree) (env : List (String × String)) (args : List String) :
    Except Failure Success :=
  match Command.ofArguments args with
  | none => .error .usage
  | some c => c.run t env

/-! ### The end of the program -/

/-- How the program ends. -/
inductive Ending where
  /-- With an exit code, and with what goes to the two outputs. -/
  | exit (code : Nat) (output errors : String)
  /-- With an exception that nobody catches. -/
  | crash (e : Raised)
  deriving DecidableEq

/-- How to call the program. -/
def usageText : String :=
  "Usage: validate PATH | ast PATH | extract links PATH | extract header PATH HEADING | " ++
    "extract file PATH\n"

/-- A message for the user, with its cause below. -/
def errorText (message : String) (cause : Option String) : String :=
  "Error: " ++ message ++ "\n" ++ ((cause.map fun c => "  " ++ c ++ "\n").getD "")

/-- The end of a program that tells the user what is wrong. -/
def Ending.report (code : Nat) (message : String) (cause : Option String) : Ending :=
  .exit code "" (errorText message cause)

/-- The exception for what is not looked for. -/
def raisedBySearch : SearchFailure → Raised
  | .tooLong path =>
      ⟨FileTree.Fault.nameTooLong.kind, (SearchFailure.tooLong path).message, false⟩
  | .nullCharacter => ⟨"ValueError", SearchFailure.nullCharacter.message, true⟩

/-- **How the program ends after an exception** in a run.  Some commands catch those for values that
are not acceptable; none catches any other. -/
def endingOfRaised (guarded : Bool) (e : Raised) : Ending :=
  if guarded && e.isValueError then .report 1 e.message none else .crash e

/-- How the program ends after a run without a result. -/
def endingOfRun (guarded : Bool) : Workflow.Failure → Ending
  | .dialect e => endingOfRaised guarded ⟨"KeyError", e.message, false⟩
  | .scope e | .check (.search e) => endingOfRaised guarded (raisedBySearch e)
  | .direct e => endingOfRaised guarded ⟨"ValueError", e.message, true⟩
  | .check (.sourceNotFound path) => .report 2 (CheckFailure.sourceNotFound path).message none
  | .check (.unreadable e) => .report 2 e.message (some e.cause.message)

/-- **How the program ends after a failure.** -/
def Failure.ending : Failure → Ending
  | .usage => .exit 2 "" usageText
  | .unknownFormat format =>
      .report 2 ("Unknown format: " ++ format ++ " (expected text or json)") none
  | .config e => if e.raised.isValueError then .report 2 e.raised.message none else .crash e.raised
  | .lines e => .report 2 e.message none
  | .run guarded e => endingOfRun guarded e

/-- What is said at the end without control sequences. -/
def Ending.plain : Ending → Ending
  | .exit code output errors =>
      .exit code (Output.withoutSequences output) (Output.withoutSequences errors)
  | .crash e => .crash e

/-- **How the program ends.** -/
def ending (r : Except Failure Success) : Ending :=
  Ending.plain (match r with
    | .error e => e.ending
    | .ok s => .exit (if s.allWell then 0 else 1) s.output "")

end Citations.CommandLine

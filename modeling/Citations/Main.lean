/-
**The program.**

The input of the program names the files that it may look at, one on each line.  The program reads
them, takes its settings from the environment and its command from its arguments, and prints what
comes of the command.

Main definitions:

* `Citations.Program.tree` — the files that were read, seen from the working directory;
* `main` — the program.
-/

import Citations.CommandLine

set_option relaxedAutoImplicit false
set_option autoImplicit false

namespace Citations.Program

/-- **The files that were read**, each with its path, seen from the working directory. -/
def tree (cwd : String) (files : List (String × List UInt8)) : FileTree :=
  files.foldl (fun t f => t.writeFile f.1 f.2)
    (FileTree.makeDirectory ⟨Path.names cwd, []⟩ cwd)

/-- The variables of the environment that hold settings. -/
def variableNames : List String := Settings.fieldNames.map Config.variableName

/-- The variables that are set, with their values. -/
def readEnvironment : IO (List (String × String)) :=
  variableNames.filterMapM fun name => do
    return (← IO.getEnv name).map fun value => (name, value)

/-- The lines of the input, without what ends them. -/
partial def readLines (input : IO.FS.Stream) : IO (List String) := do
  let line ← input.getLine
  if line.isEmpty then return []
  return String.ofList (Text.chomp line.toList) :: (← readLines input)

/-- The files at the given paths; what cannot be read is left out. -/
def readFiles (paths : List String) : IO (List (String × List UInt8)) :=
  paths.filterMapM fun (path : String) => do
    try
      return some (path, (← IO.FS.readBinFile path).data.toList)
    catch _ => return none

end Citations.Program

open Citations in
/-- Carries out the command that the arguments name. -/
def main (args : List String) : IO UInt32 := do
  let cwd := (← IO.getEnv "PWD").getD "/"
  let env ← Program.readEnvironment
  let files ← Program.readFiles (← Program.readLines (← IO.getStdin))
  match CommandLine.ending (CommandLine.run (Program.tree cwd files) env args) with
  | .exit code output errors =>
      IO.print output
      IO.eprint errors
      return code.toUInt32
  | .crash e =>
      IO.eprintln (e.kind ++ ": " ++ e.message)
      return 1

/-
**Links without a document.**

What the user names on the command line is treated as a link: to a whole file, or to a section of
it.  Such a link has no place in a document, so it stands at line zero of a document beside its
target.

Main definitions:

* `Citations.Link.toFile`, `Citations.Link.toSection` — the link to a file, and to one section of
  it;
* `Citations.Link.DirectError` — why there is no such link.
-/

import Citations.Link.Basic
import Citations.Path
import Citations.Text.Blank

set_option relaxedAutoImplicit false
set_option autoImplicit false

namespace Citations.Link

open Text

/-- Why there is no link to what the user names. -/
inductive DirectError where
  /-- No file is named. -/
  | emptyPath
  /-- No section is named. -/
  | emptyHeading
  deriving DecidableEq

/-- The words for an error. -/
def DirectError.message : DirectError → String
  | .emptyPath => "target path cannot be empty"
  | .emptyHeading => "heading cannot be empty"

/-- The file that the user names, seen from the directory `base`; `cwd` is the working
directory. -/
def directTarget (cwd base path : String) : Except DirectError TargetPath :=
  if allBlank path.toList then .error .emptyPath
  else
    let absolute := Path.normalize (Path.join base path)
    .ok ⟨absolute, absolute, Path.relative cwd absolute base⟩

/-- **The link to a whole file.** -/
def toFile (cwd base path : String) : Except DirectError Link :=
  (directTarget cwd base path).map fun target =>
    let name := Path.fileName target.absolute
    { kind := .markdown, anchorKind := none, source := Path.join base name
      target := ⟨some target, none⟩, text := some name
      fullMatch := "[" ++ name ++ "](" ++ path ++ ")"
      line := 0, column := 0, marker := none, verdict := none }

/-- **The link to the section of a file below a heading.** -/
def toSection (cwd base path heading : String) : Except DirectError Link :=
  if allBlank heading.toList then .error .emptyHeading
  else
    (directTarget cwd base path).map fun target =>
      { kind := .markdown, anchorKind := some .header
        source := Path.join base (Path.fileName target.absolute)
        target := ⟨some target, some heading⟩, text := some heading
        fullMatch := "[" ++ heading ++ "](" ++ path ++ "#" ++ heading ++ ")"
        line := 0, column := 0, marker := none, verdict := none }

end Citations.Link

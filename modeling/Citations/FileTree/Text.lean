/-
**Reading texts.**

A document is read as UTF-8, every kind of line ending becoming a line feed.

Main definitions:

* `Citations.ReadFailure` — why a document cannot be read;
* `Citations.FileTree.readText` — the text of a document.
-/

import Citations.FileTree
import Citations.Text.Lines
import Citations.Text.Quoted
import Citations.Text.Utf8

set_option relaxedAutoImplicit false
set_option autoImplicit false

namespace Citations

open Text

/-- Why a document cannot be read: the path leads to no file, or the file is not UTF-8. -/
inductive ReadCause where
  | fault (fault : FileTree.Fault) (path : String)
  | encoding (fault : Utf8.Fault)
  deriving DecidableEq

/-- A document that cannot be read, and why. -/
structure ReadFailure where
  path : String
  cause : ReadCause
  deriving DecidableEq

/-- The words for bytes that are not UTF-8: which bytes, where, and why. -/
def encodingMessage (f : Utf8.Fault) : String :=
  let last := f.offset + f.length - 1
  let place :=
    if f.length = 1 then
      "byte 0x" ++ String.ofList (hex 2 f.byte.toNat) ++ " in position " ++ toString f.offset
    else "bytes in position " ++ toString f.offset ++ "-" ++ toString last
  "'utf-8' codec can't decode " ++ place ++ ": " ++ f.reason.message

/-- The words for a cause. -/
def ReadCause.message : ReadCause → String
  | .fault f path => f.message ++ ": " ++ quote path
  | .encoding f => encodingMessage f

/-- The words for a failure. -/
def ReadFailure.message (e : ReadFailure) : String :=
  "Cannot read " ++ e.path ++ ": " ++ e.cause.message

/-- **The text of a document.** -/
def FileTree.readText (t : FileTree) (path : String) : Except ReadFailure String :=
  let tidy := Path.tidy path
  match t.read tidy with
  | .error f => .error ⟨path, .fault f tidy⟩
  | .ok bytes =>
      match Utf8.decode bytes with
      | .error f => .error ⟨path, .encoding f⟩
      | .ok cs => .ok (String.ofList (unifyBreaks cs))

end Citations

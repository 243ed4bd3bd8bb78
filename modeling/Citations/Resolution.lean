/-
**Resolving the path of a link.**

Three ways of reading the path of a link are tried in turn: relative to the document, relative to
the real place of a document that is reached through a link, and relative to some directory above
the document, the root of a vault of notes.  The second way cannot be taken where the path of the
document has no real path.

Main definitions:

* `Citations.Resolution.literal?`, `Citations.Resolution.linked?`, `Citations.Resolution.vault?` —
  the three ways;
* `Citations.Resolution.direct?` — the first of them that leads to a file;
* `Citations.Resolution.trace` — what was tried, for a link that leads nowhere.

Main results:

* `Citations.Resolution.isFile_of_literal?` — what is found relative to the document is a file;
* `Citations.Resolution.eq_of_direct?` — what is found directly is found in one of the three ways.
-/

import Citations.FileTree.Real
import Citations.Text.Percent

set_option relaxedAutoImplicit false
set_option autoImplicit false

namespace Citations.Resolution

open Text

/-- The ways to read a path: with its percent escapes decoded, and as written. -/
def readings (raw : String) : List String := [decode raw, raw].eraseDups

/-- The path relative to the directory of the document. -/
def besides (source path : String) : String :=
  Path.normalize (Path.join (Path.directory source) path)

/-- **The file that a path leads to from the document.** -/
def literal? (t : FileTree) (raw source : String) : Option String :=
  ((readings raw).map (besides source)).find? t.isFile

/-- What is found relative to the document is a file. -/
theorem isFile_of_literal? {t : FileTree} {raw source path : String}
    (h : literal? t raw source = some path) : t.isFile path = true :=
  List.find?_some h

/-- **The file that a path leads to from the real place of the document**, if that is another
one. -/
def linked? (t : FileTree) (raw source : String) : Except SearchFailure (Option String) :=
  (t.realPath source).map fun real => if real = source then none else literal? t raw real

/-- Whether a path may start at the root of a vault: it begins with the plain name of a
directory. -/
def isVaultPath (raw : String) : Bool :=
  let isPlain (c : Char) : Bool := c.isAlphanum || c == '_' || c == '-'
  let name := raw.toList.takeWhile isPlain
  !name.isEmpty && (raw.toList.drop name.length).head? == some '/'

/-- The directories from `dir` upwards, as far as going up leads anywhere; `steps` bounds their
number. -/
def chainWithin : (steps : Nat) → String → List String
  | 0, _ => []
  | steps + 1, dir =>
      if dir = Path.directory dir then [] else dir :: chainWithin steps (Path.directory dir)

/-- The directories from `dir` upwards.  Each is shorter than the one before. -/
def chain (dir : String) : List String := chainWithin (dir.length + 1) dir

/-- **The file that a path leads to from a directory above the document**, the nearest one
counting. -/
def vault? (t : FileTree) (raw source : String) : Option String :=
  let path := decode raw
  if isVaultPath path then
    (((chain (Path.directory source)).map fun dir => Path.join dir path).find? t.isFile).map
      Path.normalize
  else none

/-- **The first file that one of the three ways leads to.**  A way is tried only if those before it
lead nowhere. -/
def direct? (t : FileTree) (raw source : String) : Except SearchFailure (Option String) :=
  match literal? t raw source with
  | some path => .ok (some path)
  | none => (linked? t raw source).map (·.or (vault? t raw source))

theorem direct?_of_literal? {t : FileTree} {raw source path : String}
    (h : literal? t raw source = some path) : direct? t raw source = .ok (some path) := by
  rw [direct?, h]

/-- What a path leads to directly was found in one of the three ways. -/
theorem eq_of_direct? {t : FileTree} {raw source path : String}
    (h : direct? t raw source = .ok (some path)) :
    literal? t raw source = some path ∨ linked? t raw source = .ok (some path) ∨
      vault? t raw source = some path := by
  unfold direct? at h
  split at h
  · rename_i file hliteral
    cases h
    exact .inl hliteral
  · obtain ⟨linked, hlinked, hfound⟩ := Except.map_eq_ok_iff.1 h
    rcases Option.or_eq_some_iff.1 hfound with rfl | ⟨-, hvault⟩
    · exact .inr (.inl hlinked)
    · exact .inr (.inr hvault)

/-- What was tried, for a link that leads nowhere. -/
def trace (t : FileTree) (raw source : String) : Except SearchFailure String :=
  (t.realPath source).map fun real =>
    let path := decode raw
    let viaLink := if real = source then [] else
      ["Source via symlink: " ++ source ++ " -> " ++ real]
    let fromLink := if real = source then [] else ["Symlink-resolved: " ++ besides real path]
    let vault := if isVaultPath path then ["Detected vault-absolute path format"] else []
    "; ".intercalate (viaLink ++ ["Tried: " ++ besides source path] ++ fromLink ++ vault)

end Citations.Resolution

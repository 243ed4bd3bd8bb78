/-
**Real paths.**

The real path of a file leads to it without links.  It is found name by name, also where nothing is
there to be found; a link that leads back to itself is left as it is, with the rest of the path
behind it.  But nothing can be looked up under a name that holds a null character, and then there is
no real path.

Main definitions:

* `Citations.SearchFailure` — why something that has to be looked for is not;
* `Citations.FileTree.Spot`, `Citations.FileTree.RealWalk` — where the search stands, and how far
  it has come;
* `Citations.FileTree.realPath` — the real path of a file;
* `Citations.FileTree.writeFile`, `Citations.FileTree.makeLink`, `Citations.FileTree.removePath` —
  changes at the place that a path leads to.

Main results:

* `Citations.FileTree.isAbsolute_pathTo` — the path to a place starts at the root.
-/

import Citations.FileTree
import Citations.Text.Quoted

set_option relaxedAutoImplicit false
set_option autoImplicit false

namespace Citations

/-! ### Outcomes that are turned into others -/

theorem Except.map_eq_ok_iff {ε α β : Type} {f : α → β} {r : Except ε α} {b : β} :
    r.map f = .ok b ↔ ∃ a, r = .ok a ∧ f a = b := by
  cases r <;> simp [Except.map]

theorem Except.map_eq_error_iff {ε α β : Type} {f : α → β} {r : Except ε α} {e : ε} :
    r.map f = .error e ↔ r = .error e := by
  cases r <;> simp [Except.map]

theorem Except.mapError_eq_ok_iff {ε ε' α : Type} {f : ε → ε'} {r : Except ε α} {a : α} :
    r.mapError f = .ok a ↔ r = .ok a := by
  cases r with
  | error e => exact ⟨fun h => (by cases h), fun h => (by cases h)⟩
  | ok b => exact ⟨fun h => (by cases h; rfl), fun h => (by cases h; rfl)⟩

theorem Except.bind_eq_ok_iff {ε α β : Type} {f : α → Except ε β} {r : Except ε α} {b : β} :
    r.bind f = .ok b ↔ ∃ a, r = .ok a ∧ f a = .ok b := by
  cases r <;> simp [Except.bind]

/-! ### Searches -/

/-- Why something that has to be looked for is not. -/
inductive SearchFailure where
  /-- This path is too long to be followed. -/
  | tooLong (path : String)
  /-- A path holds a null character. -/
  | nullCharacter
  deriving DecidableEq

/-- The words for what is not looked for. -/
def SearchFailure.message : SearchFailure → String
  | .tooLong path => FileTree.Fault.nameTooLong.message ++ ": " ++ Text.quote path
  | .nullCharacter => "embedded null byte"

namespace FileTree

/-- Where the search for a real path stands: names behind the root, or behind the working
directory.  In the second case there may be `..` in front. -/
structure Spot where
  rooted : Bool
  names : List String
  deriving DecidableEq

/-- The spot above another one.  Above the root there is nothing. -/
def Spot.above (s : Spot) : Spot :=
  if s.rooted || (!s.names.isEmpty && s.names.getLast? != some "..") then
    { s with names := s.names.dropLast }
  else { s with names := s.names ++ [".."] }

/-- The spot of a name below another one. -/
def Spot.below (s : Spot) (name : String) : Spot := { s with names := s.names ++ [name] }

/-- A spot with the rest of a path behind it; a rest that starts with a slash starts at the
root. -/
def Spot.withRest (s : Spot) (rest : List String) : Spot :=
  if rest.head? = some "" ∧ 2 ≤ rest.length then ⟨true, rest⟩
  else { s with names := s.names ++ rest }

/-- The path to a spot. -/
def Spot.path (s : Spot) : String :=
  (if s.rooted then "/" else "") ++ Path.joinSegments s.names

/-- The place of a spot. -/
def placeOf (t : FileTree) (s : Spot) : Place :=
  Path.clean true (if s.rooted then s.names else t.cwd ++ s.names)

/-- What is at a spot, if the path to it can be followed. -/
def lookAt (t : FileTree) (s : Spot) : Option FileNode :=
  if maxPathLength < s.path.utf8ByteSize then none else t.get? (t.placeOf s)

/-- The links met so far, each with the spot it leads to once that is known. -/
abbrev Seen := List (Spot × Option Spot)

/-- How far the search for a real path has come: the spot found, whether a loop has stopped the
search, and the links met. -/
structure RealWalk where
  found : Spot
  stuck : Bool
  seen : Seen

/-- Whether a text holds a null character. -/
def holdsNull (s : String) : Bool := s.toList.contains '\x00'

/-- Follows names from a spot, nothing but links being looked up.  What a link leads to is left to
`follow`. -/
def realWalk (t : FileTree) (follow : Seen → Spot → List String → Except SearchFailure RealWalk) :
    Seen → Spot → List String → Except SearchFailure RealWalk
  | seen, here, [] => .ok ⟨here, false, seen⟩
  | seen, here, name :: rest =>
      if name = "" ∨ name = "." then realWalk t follow seen here rest
      else if name = ".." then realWalk t follow seen here.above rest
      else if holdsNull name then .error .nullCharacter
      else
        let next := here.below name
        match t.lookAt next with
        | some (.link target) =>
            match seen.find? fun s => s.1 = next with
            | some (_, some found) => realWalk t follow seen found rest
            | some (_, none) => .ok ⟨next.withRest rest, true, seen⟩
            | none =>
                let from_ := if Path.isAbsolute target then ⟨true, []⟩ else here
                match follow ((next, none) :: seen) from_ (Path.segments target) with
                | .error e => .error e
                | .ok r =>
                    if r.stuck then .ok ⟨r.found.withRest rest, true, r.seen⟩
                    else realWalk t follow ((next, some r.found) :: r.seen) r.found rest
        | _ => realWalk t follow seen next rest

/-- Follows names from a spot; `depth` bounds how many links are inside one another. -/
def realWithin (t : FileTree) :
    (depth : Nat) → Seen → Spot → List String → Except SearchFailure RealWalk
  | 0 => realWalk t fun seen here rest => .ok ⟨here.withRest rest, true, seen⟩
  | depth + 1 => realWalk t (realWithin t depth)

/-- The place of a real path.  Links inside one another are all different, and each can be met from
the root and from any of the directories up to the working directory. -/
def realPlace (t : FileTree) (path : String) : Except SearchFailure Place :=
  let depth := (t.cwd.length + 2) * t.nodes.length
  (realWithin t depth [] ⟨Path.isAbsolute path, []⟩ (Path.segments path)).map fun r =>
    t.placeOf r.found

/-- **The real path of a file.** -/
def realPath (t : FileTree) (path : String) : Except SearchFailure String :=
  (t.realPlace path).map pathTo

/-- The path to a place starts at the root. -/
theorem isAbsolute_pathTo (p : Place) : Path.isAbsolute (pathTo p) = true := by
  simp [Path.isAbsolute, pathTo]

/-! ### Changes -/

/-- A change at a place, if there is such a place. -/
def changeAt (t : FileTree) (place : Except SearchFailure Place)
    (change : Place → FileTree) : FileTree :=
  match place with
  | .error _ => t
  | .ok p => change p

/-- Writes a file, through links, in directories that are made as needed. -/
def writeFile (t : FileTree) (path : String) (bytes : List UInt8) : FileTree :=
  t.changeAt (t.realPlace path) fun p => t.put p (.file bytes)

/-- The place of a path whose last name is not followed. -/
def entryPlace (t : FileTree) (path : String) : Except SearchFailure Place :=
  let absolute := Path.absolute t.cwdPath path
  (t.realPlace (Path.directory absolute)).map fun p => p ++ [Path.fileName absolute]

/-- Makes a directory, and those above it. -/
def makeDirectory (t : FileTree) (path : String) : FileTree :=
  t.changeAt (t.realPlace path) fun p => (t.ensureAbove p).ensure p

/-- Makes a link, in directories that are made as needed. -/
def makeLink (t : FileTree) (path target : String) : FileTree :=
  t.changeAt (t.entryPlace path) fun p => t.put p (.link target)

/-- Takes away a file, a link, or a directory and all that is in it. -/
def removePath (t : FileTree) (path : String) : FileTree := t.changeAt (t.entryPlace path) t.drop

end FileTree

end Citations

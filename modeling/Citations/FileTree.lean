/-
**Trees of files.**

What there is to read is a tree of directories, files and symbolic links, seen from a working
directory.  A place in the tree is the list of names that lead to it from the root; a path is a text
that is followed from the root or from the working directory, through links.

Main definitions:

* `Citations.FileTree` — the tree, with the working directory;
* `Citations.FileTree.get?` — what is at a place;
* `Citations.FileTree.put`, `Citations.FileTree.drop` — the tree with something more or less in it;
* `Citations.FileTree.locate` — the place that a path leads to;
* `Citations.FileTree.isFile`, `Citations.FileTree.read` — whether a path leads to a file, and what
  is in it.

Main results:

* `Citations.FileTree.isFile_iff` — a path leads to a file exactly when the file can be read.
-/

import Citations.Path

set_option relaxedAutoImplicit false
set_option autoImplicit false

namespace Citations

/-- What can be at a place. -/
inductive FileNode where
  | directory
  | file (bytes : List UInt8)
  | link (target : String)
  deriving DecidableEq

/-- A place: the names that lead to it from the root. -/
abbrev Place := List String

/-- A tree of files, as the places that hold something, and the working directory. -/
structure FileTree where
  cwd : Place
  nodes : List (Place × FileNode)

namespace FileTree

/-- The path to a place. -/
def pathTo (p : Place) : String := "/" ++ Path.joinSegments p

/-- The path to the working directory. -/
def cwdPath (t : FileTree) : String := pathTo t.cwd

/-- **What is at a place**; the root is always a directory. -/
def get? (t : FileTree) (p : Place) : Option FileNode :=
  if p = [] then some .directory
  else (t.nodes.find? fun n => n.1 = p).map Prod.snd

/-! ### Changes -/

/-- The places on the way from the root to a place, which is left out. -/
def above (p : Place) : List Place := (List.range p.length).map p.take

/-- Makes sure that there is something at a place. -/
def ensure (t : FileTree) (p : Place) : FileTree :=
  if (t.get? p).isSome then t else { t with nodes := t.nodes ++ [(p, .directory)] }

/-- Makes sure that all directories on the way to a place are there. -/
def ensureAbove (t : FileTree) (p : Place) : FileTree := (above p).foldl ensure t

/-- Puts something at a place, in directories that are made as needed. -/
def put (t : FileTree) (p : Place) (n : FileNode) : FileTree :=
  let t := t.ensureAbove p
  { t with nodes := t.nodes.filter (·.1 ≠ p) ++ [(p, n)] }

/-- Takes away what is at a place and below it. -/
def drop (t : FileTree) (p : Place) : FileTree :=
  { t with nodes := t.nodes.filter fun n => !p.isPrefixOf n.1 }

/-! ### Following a path -/

/-- Why a path leads to no file. -/
inductive Fault where
  /-- There is nothing of this name. -/
  | notFound
  /-- What should be a directory is none. -/
  | notDirectory
  /-- What should be a file is a directory. -/
  | isDirectory
  /-- There are too many links on the way. -/
  | tooManyLinks
  /-- A name or the whole path is too long. -/
  | nameTooLong
  deriving DecidableEq

/-- The length in bytes beyond which nothing can have a name. -/
def maxNameLength : Nat := 255

/-- The length in bytes beyond which no path can be followed. -/
def maxPathLength : Nat := 4095

/-- The names of a path, and the place from which they lead on: the root if the path starts there,
else the given place. -/
def start (here : Place) (path : String) : Place × List String :=
  (if Path.isAbsolute path then [] else here, Path.segments path)

/-- The place that names lead to.  What is left to do behind a link is left to `follow`. -/
def walk (t : FileTree) (follow : Place → List String → Except Fault Place) :
    Place → List String → Except Fault Place
  | here, [] => .ok here
  | here, name :: rest =>
      if t.get? here ≠ some .directory then .error .notDirectory
      else if name = "" ∨ name = "." then walk t follow here rest
      else if name = ".." then walk t follow here.dropLast rest
      else if maxNameLength < name.utf8ByteSize then .error .nameTooLong
      else
        match t.get? (here ++ [name]) with
        | none => .error .notFound
        | some (.link target) =>
            let next := start here target
            follow next.1 (next.2 ++ rest)
        | some _ => walk t follow (here ++ [name]) rest

/-- The place that names lead to through at most a given number of links. -/
def locateWithin (t : FileTree) : (links : Nat) → Place → List String → Except Fault Place
  | 0 => walk t fun _ _ => .error .tooManyLinks
  | links + 1 => walk t (locateWithin t links)

/-- How many links may be on the way. -/
def maxLinks : Nat := 40

/-- **The place that a path leads to**, which holds no link. -/
def locate (t : FileTree) (path : String) : Except Fault Place :=
  if maxPathLength < path.utf8ByteSize then .error .nameTooLong
  else
    let from_ := start t.cwd path
    locateWithin t maxLinks from_.1 from_.2

/-- **The bytes of the file that a path leads to.** -/
def read (t : FileTree) (path : String) : Except Fault (List UInt8) :=
  match t.locate path with
  | .error e => .error e
  | .ok p =>
      match t.get? p with
      | some (.file bytes) => .ok bytes
      | some _ => .error .isDirectory
      | none => .error .notFound

/-- **Whether a path leads to a file.** -/
def isFile (t : FileTree) (path : String) : Bool :=
  match t.locate path with
  | .error _ => false
  | .ok p => (t.get? p).any fun n => match n with
      | .file _ => true
      | _ => false

/-- A path leads to a file exactly when the file can be read. -/
theorem isFile_iff (t : FileTree) (path : String) :
    t.isFile path = true ↔ ∃ bytes, t.read path = .ok bytes := by
  unfold isFile read
  cases t.locate path with
  | error e => simp
  | ok p =>
      simp only
      cases t.get? p with
      | none => simp
      | some n => cases n <;> simp

/-- The kind of exception for a fault. -/
def Fault.kind : Fault → String
  | .notFound => "FileNotFoundError"
  | .notDirectory => "NotADirectoryError"
  | .isDirectory => "IsADirectoryError"
  | .tooManyLinks | .nameTooLong => "OSError"

/-- The words for a fault, with its number. -/
def Fault.message : Fault → String
  | .notFound => "[Errno 2] No such file or directory"
  | .notDirectory => "[Errno 20] Not a directory"
  | .isDirectory => "[Errno 21] Is a directory"
  | .tooManyLinks => "[Errno 40] Too many levels of symbolic links"
  | .nameTooLong => "[Errno 36] File name too long"

end FileTree

end Citations

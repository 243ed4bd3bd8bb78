/-
**Paths as texts.**

A path is a text in which slashes separate names.  Everything here works on the text alone and
never looks at a file: a path is normalised by dropping empty and `.` segments and letting `..`
cancel the name before it, and the relative path between two places is found by comparing their
normalised absolute forms name by name.

Two slashes at the start are a root of their own; three or more are the ordinary root.

Main definitions:

* `Citations.Path.segments` — the pieces of a path between its slashes;
* `Citations.Path.join`, `Citations.Path.directory`, `Citations.Path.fileName` — putting two paths
  together, and the two parts of one path;
* `Citations.Path.normalize`, `Citations.Path.absolute` — the normal form of a path, and that of a
  path seen from a directory;
* `Citations.Path.relative` — the path that leads from one directory to a target;
* `Citations.Path.resolve` — the target of a path written in a document.

Main results:

* `Citations.Path.join_of_isAbsolute` — an absolute path stays as it is wherever it is joined.
-/

set_option relaxedAutoImplicit false
set_option autoImplicit false

namespace Citations.Path

/-! ### Segments -/

/-- The pieces of a text between its slashes; there is always one more piece than slashes. -/
def pieces : List Char → List (List Char)
  | [] => [[]]
  | c :: cs =>
      if c = '/' then [] :: pieces cs
      else
        match pieces cs with
        | [] => [[c]]
        | p :: ps => (c :: p) :: ps

theorem pieces_ne_nil (cs : List Char) : pieces cs ≠ [] := by
  cases cs with
  | nil => simp [pieces]
  | cons c cs =>
      simp only [pieces]
      split
      · simp
      · split <;> simp

/-- The pieces of a path between its slashes. -/
def segments (p : String) : List String := (pieces p.toList).map String.ofList

/-- The names between the slashes of a path, empty ones left out. -/
def names (p : String) : List String := (segments p).filter (· ≠ "")

/-- Segments with slashes between them. -/
def joinSegments (segs : List String) : String := "/".intercalate segs

/-! ### Parts of a path -/

/-- Whether a path starts at the root. -/
def isAbsolute (p : String) : Bool := p.toList.head? == some '/'

/-- The path `b` seen from `a`: an absolute `b` stands for itself. -/
def join (a b : String) : String :=
  if isAbsolute b then b
  else if a = "" ∨ a.toList.getLast? = some '/' then a ++ b
  else a ++ "/" ++ b

theorem join_of_isAbsolute (a : String) {b : String} (h : isAbsolute b = true) : join a b = b := by
  simp [join, h]

theorem join_ne_empty {a : String} (h : a ≠ "") (b : String) : join a b ≠ "" := by
  unfold join
  split
  · rintro rfl
    contradiction
  · split <;> simp [String.append_eq_empty_iff, h]

/-- What a path names in its directory: the part behind the last slash. -/
def fileName (p : String) : String :=
  String.ofList (p.toList.reverse.takeWhile (· ≠ '/')).reverse

/-- The part of a path before its last slash, which stays only if it holds nothing but slashes. -/
def directory (p : String) : String :=
  let before := p.toList.reverse.dropWhile (· ≠ '/')
  String.ofList (if before.all (· = '/') then before else before.dropWhile (· = '/')).reverse

/-- The slashes that make up the root of a path: none, one, or exactly two. -/
def root (p : String) : String :=
  match p.toList with
  | '/' :: '/' :: '/' :: _ => "/"
  | '/' :: '/' :: _ => "//"
  | '/' :: _ => "/"
  | _ => ""

/-! ### Normal form -/

/-- Adds a segment to the names kept so far, last one first. -/
def cleanStep (rooted : Bool) (kept : List String) (s : String) : List String :=
  if s = "" ∨ s = "." then kept
  else if s = ".." then
    match kept with
    | [] => if rooted then [] else [".."]
    | top :: rest => if top = ".." then ".." :: kept else rest
  else s :: kept

/-- Segments without empty and `.` ones, each `..` having cancelled the name before it.  Above a
root, `..` leads nowhere. -/
def clean (rooted : Bool) (segs : List String) : List String :=
  (segs.foldl (cleanStep rooted) []).reverse

@[simp] theorem clean_nil (rooted : Bool) : clean rooted [] = [] := rfl

/-- **The normal form of a path.** -/
def normalize (p : String) : String :=
  let q := root p ++ joinSegments (clean (isAbsolute p) (segments p))
  if q = "" then "." else q

theorem normalize_ne_empty (p : String) : normalize p ≠ "" := by
  unfold normalize
  dsimp only
  split
  · decide
  · assumption

/-- The normal form of a path seen from the directory `cwd`. -/
def absolute (cwd p : String) : String :=
  normalize (if isAbsolute p then p else join cwd p)

/-- A path without empty and `.` segments, in which `..` is kept. -/
def tidy (p : String) : String :=
  let q := root p ++ joinSegments ((segments p).filter fun s => s ≠ "" ∧ s ≠ ".")
  if q = "" then "." else q

/-! ### Relative paths -/

/-- The names that lead from the directory `start` to `target`: up as often as names are left of
`start`, then down. -/
def climb : (start target : List String) → List String
  | a :: as, b :: bs =>
      if a = b then climb as bs else List.replicate (as.length + 1) ".." ++ b :: bs
  | as, bs => List.replicate as.length ".." ++ bs

/-- The path that leads from the directory `start` to `target`, both seen from `cwd`. -/
def relative (cwd target start : String) : String :=
  match climb (names (absolute cwd start)) (names (absolute cwd target)) with
  | [] => "."
  | segs => joinSegments segs

/-- The path that leads from the document `source` to `target`. -/
def relativeToDocument (cwd target source : String) : String :=
  relative cwd target (directory source)

/-- Why there is no relative path. -/
inductive Error where
  /-- The empty path names no place. -/
  | noPath
  deriving DecidableEq

/-- The words for an error. -/
def Error.message : Error → String
  | .noPath => "no path specified"

/-- The path that leads from the document `source` to `target`, which must not be empty. -/
def relativeToDocument? (cwd target source : String) : Except Error String :=
  if target = "" then .error .noPath else .ok (relativeToDocument cwd target source)

/-- The target of a path that the document `source` holds. -/
def resolve (raw source : String) : String :=
  if isAbsolute raw then normalize raw else normalize (join (directory source) raw)

end Citations.Path

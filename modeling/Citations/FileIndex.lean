/-
**Finding files by name.**

A link that leads nowhere may still name a file that lies elsewhere in a given directory, the scope.
All Markdown files below the scope are listed by name; a name that occurs more than once is of no
use, and a name that does not occur may be a misspelling of one that does.

Listing a scope goes through all directories below it before it looks at a single file.  It fails at
a directory whose path is too long, and then no file is listed; and it fails at a file whose path is
too long, and then the files up to there are.

Main definitions:

* `Citations.FileIndex` — the files of a scope;
* `Citations.FileIndex.build`, `Citations.FileIndex.ofScope` — lists the files of a scope, in place
  of others or in a new index;
* `Citations.FileIndex.failure?` — why a scope cannot be listed to its end;
* `Citations.NameResolution` — what a name leads to;
* `Citations.FileIndex.lookUp` — what a name leads to among the files of an index;
* `Citations.FileIndex.resolve` — the same, for a scope that may have to be listed first.

Main results:

* `Citations.FileIndex.build_of_scopeRoot` — what is listed of a scope that has a real path does not
  depend on what was listed before.
-/

import Citations.FileTree.Real
import Citations.Similarity

set_option relaxedAutoImplicit false
set_option autoImplicit false

namespace Citations

/-- A file of a scope: its name, and its path below the scope as the user gives it. -/
structure IndexedFile where
  name : String
  path : String
  deriving DecidableEq

/-- The Markdown files below a scope, in the order of their paths; no scope, no files. -/
structure FileIndex where
  scope : Option String
  files : List IndexedFile
  deriving DecidableEq

/-- What a name leads to. -/
inductive NameResolution where
  /-- The file of this name. -/
  | direct (path : String)
  /-- The file whose name has one extension less. -/
  | fixedExtension (fixed path : String)
  /-- The file with the most similar name. -/
  | similar (found asked path : String)
  /-- Several files have this name. -/
  | ambiguous (name : String)
  /-- No file has this name. -/
  | missing (name : String)
  deriving DecidableEq

namespace NameResolution

/-- The path of the file that was found. -/
def path? : NameResolution → Option String
  | .direct path | .fixedExtension _ path | .similar _ _ path => some path
  | .ambiguous _ | .missing _ => none

/-- The kind of an answer, as it is reported. -/
def reason : NameResolution → String
  | .direct _ => "direct"
  | .fixedExtension .. | .similar .. => "fuzzy"
  | .ambiguous _ => "duplicate"
  | .missing _ => "not_found"

/-- The words for an answer that is not just a file of this name. -/
def message? : NameResolution → Option String
  | .direct _ => none
  | .fixedExtension fixed _ => some ("Found \"" ++ fixed ++ "\" (fixed double .md extension)")
  | .similar found asked _ =>
      some ("Found similar file \"" ++ found ++ "\" for \"" ++ asked ++ "\"")
  | .ambiguous name =>
      some ("Multiple files named \"" ++ name ++
        "\" found in scope. Use relative path for disambiguation.")
  | .missing name => some ("File \"" ++ name ++ "\" not found in scope folder.")

end NameResolution

namespace FileIndex

/-- The index before any scope is listed. -/
def empty : FileIndex := ⟨none, []⟩

/-! ### Listing a scope -/

/-- The extension of a Markdown file. -/
def extension : String := ".md"

/-- Whether a name has the extension of a Markdown file. -/
def hasExtension (name : String) : Bool := extension.toList.isSuffixOf name.toList

/-- The scope as the user gives it, in normal form. -/
def givenScope (t : FileTree) (scope : String) : String := Path.absolute t.cwdPath scope

/-- The place of a scope, which has none if its path holds a null character. -/
def scopePlace (t : FileTree) (scope : String) : Except SearchFailure Place :=
  t.realPlace (givenScope t scope)

/-- The real path of a scope. -/
def scopeRoot (t : FileTree) (scope : String) : Except SearchFailure String :=
  (scopePlace t scope).map FileTree.pathTo

/-- Whether a path comes before another or is the same, name by name. -/
def comesFirst : List String → List String → Bool
  | [], _ => true
  | _ :: _, [] => false
  | a :: as, b :: bs => a < b || (a == b && comesFirst as bs)

/-- The directories below a directory.  Those behind links are not entered. -/
def directoriesBelow (t : FileTree) (root : Place) : List Place :=
  (t.nodes.filter fun n => root.isPrefixOf n.1 && root != n.1 && n.2 = .directory).map Prod.fst

/-- The names below a directory that end as those of Markdown files, in order. -/
def entriesBelow (t : FileTree) (root : Place) : List (List String) :=
  (t.nodes.filterMap fun n =>
      if root.isPrefixOf n.1 && root != n.1 && n.1.getLast?.any hasExtension then
        some (n.1.drop root.length)
      else none).mergeSort comesFirst

/-- Whether a path is too long to be followed, or leads through a link to one that is. -/
def isTooLong (t : FileTree) (path : String) : Bool :=
  match t.locate path with
  | .error .nameTooLong => true
  | _ => false

/-- The first of some places whose path is too long. -/
def tooLong? (t : FileTree) (places : List Place) : Option SearchFailure :=
  ((places.map FileTree.pathTo).find? (isTooLong t)).map .tooLong

/-- Why the directories below a directory cannot be gone through: the path to it, or to one of
them, is too long. -/
def scanFailure? (t : FileTree) (root : Place) : Option SearchFailure :=
  tooLong? t (root :: directoriesBelow t root)

/-- Why the entries below a directory cannot be gone through. -/
def entryFailure? (t : FileTree) (root : Place) : Option SearchFailure :=
  tooLong? t ((entriesBelow t root).map (root ++ ·))

/-- **Why a scope cannot be listed to its end**, or not at all: its path holds a null character, or
the path to a directory or to a file in it is too long. -/
def failure? (t : FileTree) (scope : String) : Option SearchFailure :=
  match scopePlace t scope with
  | .error e => some e
  | .ok root => (scanFailure? t root).or (entryFailure? t root)

/-- The names below a directory that lead to Markdown files, in order, up to an entry that cannot be
followed; none if the directories cannot be gone through.  A link may itself lead to a file. -/
def filesBelow (t : FileTree) (root : Place) : List (List String) :=
  let path (names : List String) : String := FileTree.pathTo (root ++ names)
  if (scanFailure? t root).isSome then []
  else
    ((entriesBelow t root).takeWhile fun names => !isTooLong t (path names)).filter fun names =>
      t.isFile (path names)

/-- **Lists the files of a scope** in place of those that were listed before.  Their paths begin
with the scope as the user gives it.  A scope whose path holds a null character does not become the scope
of the index, but the files are forgotten all the same. -/
def build (t : FileTree) (i : FileIndex) (scope : String) : FileIndex :=
  match scopePlace t scope with
  | .error _ => { i with files := [] }
  | .ok root =>
      { scope := some (FileTree.pathTo root)
        files := (filesBelow t root).map fun names =>
          ⟨names.getLast?.getD "", Path.join (givenScope t scope) (Path.joinSegments names)⟩ }

/-- **A new index**, which lists the files of a scope. -/
def ofScope (t : FileTree) (scope : String) : FileIndex := build t empty scope

/-- What is listed of a scope that has a real path does not depend on what was listed before. -/
theorem build_of_scopeRoot {t : FileTree} {scope root : String}
    (h : scopeRoot t scope = .ok root) (i : FileIndex) : build t i scope = ofScope t scope := by
  unfold scopeRoot at h
  unfold ofScope build
  cases hplace : scopePlace t scope with
  | error e =>
      rw [hplace] at h
      cases h
  | ok place => rfl

/-- A new index is called after its scope, unless that has no real path. -/
theorem scope_ofScope (t : FileTree) (scope : String) :
    (ofScope t scope).scope = (scopeRoot t scope).toOption := by
  unfold ofScope build scopeRoot
  cases scopePlace t scope <;> rfl

/-! ### Names -/

/-- The names in an index, each once, in order. -/
def names (i : FileIndex) : List String := (i.files.map IndexedFile.name).eraseDups

/-- How many files have a name. -/
def count (i : FileIndex) (name : String) : Nat := i.files.countP (·.name = name)

/-- The number of names in an index. -/
def size (i : FileIndex) : Nat := i.names.length

/-- The names that several files have, in alphabetical order. -/
def duplicates (i : FileIndex) : List String :=
  (i.names.filter fun name => 1 < i.count name).mergeSort fun a b => a ≤ b

/-- What a name leads to that at least one file has; `answer` says how the name was found. -/
def answerFor (i : FileIndex) (name : String) (answer : String → NameResolution) :
    NameResolution :=
  match i.files.filter (·.name = name) with
  | [file] => answer file.path
  | [] => .missing name
  | _ => .ambiguous name

/-- A name with exactly one extension more than it has without its own. -/
def withExtension (name : String) : String :=
  let cs := name.toList
  let bare := if hasExtension name then cs.take (cs.length - extension.toList.length) else cs
  String.ofList bare ++ extension

/-- The name with one extension less, if it has two of them and the shorter one is known. -/
def withoutDoubleExtension (i : FileIndex) (name : String) : Option String :=
  let cs := name.toList
  if ".md.md".toList.isSuffixOf cs then
    let fixed := String.ofList (cs.take (cs.length - 3))
    if 0 < i.count fixed then some fixed else none
  else none

/-- How similar a name must be to be taken for a misspelling, as a multiple of the smallest number
of double precision. -/
def cutoff : Nat := Binary64.ofRatio 85 100

/-- The better of two names with their scores: the higher score and then the later name. -/
def better (a b : Nat × String) : Nat × String :=
  if a.1 < b.1 ∨ (a.1 = b.1 ∧ a.2 < b.2) then b else a

/-- **The name in the index that is most similar to another.** -/
def mostSimilar (i : FileIndex) (target : String) : Option String :=
  let scored := (i.names.map fun n => (Similarity.ratio n.toList target.toList, n)).filter
    fun p => cutoff ≤ p.1
  match scored with
  | [] => none
  | p :: ps => some (ps.foldl better p).2

/-- **What a name leads to**: the file of that name, with its extension added if need be, or else a
file with a similar name.  Directories in front of the name do not matter. -/
def lookUp (i : FileIndex) (filename : String) : NameResolution :=
  let name := Path.fileName filename
  -- the name as it is comes before the name with its extension added
  match [name, withExtension name].find? fun n => 0 < i.count n with
  | some n => i.answerFor n .direct
  | none =>
      match i.withoutDoubleExtension name with
      | some fixed => i.answerFor fixed (.fixedExtension fixed)
      | none =>
          match i.mostSimilar (if hasExtension name then name else name ++ extension) with
          | some found => i.answerFor found (.similar found name)
          | none => .missing name

/-- The index for a scope: this one if it lists that scope already.  A scope that has to be listed
may fail to be. -/
def forScope (t : FileTree) (i : FileIndex) : Option String → FileIndex × Option SearchFailure
  | none => (i, none)
  | some scope =>
      match scopeRoot t scope with
      | .error e => (i, some e)
      | .ok root =>
          if some root = i.scope then (i, none) else (build t i scope, failure? t scope)

/-- **What a name leads to in a scope**, and the index that lists the scope. -/
def resolve (t : FileTree) (i : FileIndex) (filename : String) (scope : Option String) :
    FileIndex × Except SearchFailure NameResolution :=
  let r := i.forScope t scope
  (r.1, match r.2 with
    | some e => .error e
    | none => .ok (r.1.lookUp filename))

end FileIndex

end Citations

/-
**Links.**

A link is a citation found on a line of a source document, together with what it points at: a file,
a place in that file, or a place in the document itself.  A verdict says whether the target exists.

Main definitions:

* `Citations.LinkKind`, `Citations.Scope`, `Citations.AnchorKind` — the ways a link can be written,
  how far it reaches, and what kind of place it names;
* `Citations.TargetPath`, `Citations.Target` — what a link points at;
* `Citations.Marker` — a directive behind a link;
* `Citations.Verdict` — the outcome of checking a link;
* `Citations.Link` — a link with its place in the source.

Main results:

* `Citations.Link.scope_eq_sameDocument_iff` — a link stays in its document exactly when it names no
  path.
-/

set_option relaxedAutoImplicit false
set_option autoImplicit false

namespace Citations

/-- The ways a link can be written. -/
inductive LinkKind where
  /-- `[text](path#anchor)` -/
  | markdown
  /-- `[[path.md#anchor|text]]` -/
  | wiki
  /-- `[cite: path#anchor]` -/
  | cite
  /-- `^anchor` -/
  | caret
  deriving DecidableEq

/-- How far a link reaches. -/
inductive Scope where
  | sameDocument
  | crossDocument
  deriving DecidableEq

/-- What kind of place an anchor names. -/
inductive AnchorKind where
  /-- A heading and the section below it. -/
  | header
  /-- A single block. -/
  | block
  deriving DecidableEq

/-- A directive behind a link: with its delimiters, and the text inside them. -/
structure Marker where
  fullMatch : String
  innerText : String
  deriving DecidableEq

/-- The file that a link points at: as written, as a normalised path, and seen from the source. -/
structure TargetPath where
  raw : String
  absolute : String
  relative : String
  deriving DecidableEq

/-- What a link points at: a file unless it is the document itself, and a place in it. -/
structure Target where
  path : Option TargetPath
  anchor : Option String
  deriving DecidableEq

/-- How a path should be written instead. -/
structure PathConversion where
  written : String
  recommended : String
  deriving DecidableEq

/-- The outcome of checking a link. -/
inductive Verdict where
  /-- The target exists; the path says where it was found, if it is a file. -/
  | valid (resolved : Option String)
  /-- The target was found, but not where the link says. -/
  | warning (problem : String) (conversion : PathConversion) (resolved : String)
      (suggestion : Option String)
  /-- The target was not found. -/
  | error (problem : String) (suggestion : Option String)
  deriving DecidableEq

/-- The path at which checking found the target. -/
def Verdict.resolved? : Verdict → Option String
  | .valid resolved => resolved
  | .warning _ _ resolved _ => some resolved
  | .error _ _ => none

/-- A link with its place in the source: lines count from one and columns from zero. -/
structure Link where
  kind : LinkKind
  anchorKind : Option AnchorKind
  source : String
  target : Target
  text : Option String
  fullMatch : String
  line : Nat
  column : Nat
  marker : Option Marker
  verdict : Option Verdict
  deriving DecidableEq

/-- A link that names a file reaches beyond its document. -/
def Link.scope (l : Link) : Scope :=
  if l.target.path.isSome then .crossDocument else .sameDocument

theorem Link.scope_eq_sameDocument_iff (l : Link) :
    l.scope = .sameDocument ↔ l.target.path = none := by
  unfold Link.scope
  cases l.target.path <;> simp

/-- The kind of place that an anchor names: a caret in front means a block. -/
def anchorKindOf : Option String → Option AnchorKind
  | none => none
  | some a =>
      match a.toList with
      | [] => none
      | c :: _ => some (if c = '^' then .block else .header)

end Citations

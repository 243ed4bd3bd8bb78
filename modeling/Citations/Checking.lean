/-
**Checking links.**

A link within its document is checked against the anchors of the document; a caret is only checked
for the form of its name.  The path of any other link is resolved, first directly and then by name
in the scope of the session, and its anchor must be in the document found there.  A file found by
name in another directory than the link says is not an error, but the path should be mended.  There
is no verdict where a file must be looked for by name and the scope cannot be listed, or where a
directory has no real path to be compared with that of another one.

Main definitions:

* `Citations.CheckFailure` — why there is no verdict;
* `Citations.Checking.inDocument` — the verdict on a link within a document;
* `Citations.Checking.target` — where the path of a link leads;
* `Citations.Checking.conversion` — how the path should be written instead;
* `Citations.Checking.verdictAt`, `Citations.Checking.acrossDocuments` — the verdict on a link to a
  file;
* `Citations.Checking.check` — the verdict on any link;
* `Citations.Checking.checkAll` — the links of a document with their verdicts.
-/

import Citations.Document.Suggestion
import Citations.Inquiry
import Citations.Link.CaretName
import Citations.Resolution

set_option relaxedAutoImplicit false
set_option autoImplicit false

namespace Citations

open Text

/-- Why a link, or all links of a document, cannot be checked. -/
inductive CheckFailure where
  /-- There is no file at the path of the document. -/
  | sourceNotFound (path : String)
  /-- The document cannot be read. -/
  | unreadable (failure : ReadFailure)
  /-- Something has to be looked for, and is not. -/
  | search (failure : SearchFailure)
  deriving DecidableEq

/-- The words for a failure. -/
def CheckFailure.message : CheckFailure → String
  | .sourceNotFound path => "File not found: " ++ path
  | .unreadable e => e.message
  | .search e => e.message

namespace Checking

/-! ### Links within a document -/

/-- The verdict on a citation by a caret: the name must have one of the known forms. -/
def caretVerdict (name : String) : Verdict :=
  if CaretName.isWellFormed name.toList then .valid none
  else
    .error ("Invalid caret pattern: ^" ++ name)
      (some ("Use format: " ++ ", ".intercalate CaretName.examples))

/-- What is wrong when an anchor is not found. -/
def anchorProblem (anchor : String) : String := "Anchor not found: #" ++ anchor

/-- **The verdict on a link within a document.** -/
def inDocument (policy : SuggestionPolicy) (d : Document) (l : Link) : Verdict :=
  let anchor := l.target.anchor.getD ""
  if l.kind = .caret then caretVerdict anchor
  else if d.hasAnchor anchor then .valid none
  else .error (anchorProblem anchor) (some (d.suggestion policy anchor))

/-! ### Where a path leads -/

/-- Where the path of a link leads. -/
inductive Destination where
  /-- To a file, where the link says. -/
  | found (path : String)
  /-- To a file in another directory, found by name. -/
  | elsewhere (path : String) (message : Option String)
  /-- To no file; what was said about its name, if anybody was asked. -/
  | missing (message : Option String)

/-- Whether a file lies in the directory that the path `raw` of the document `source` names. -/
def isExpectedDirectory (t : FileTree) (raw source path : String) : Except SearchFailure Bool := do
  let expected := Path.directory (Path.join (Path.directory source) (decode raw))
  return (← t.realPath (Path.directory path)) = (← t.realPath expected)

/-- Where a path leads that does not resolve directly, given what its name leads to. -/
def byName (t : FileTree) (raw source : String) (named : Option NameResolution) :
    Except SearchFailure Destination :=
  match named with
  | none => .ok (.missing none)
  | some r =>
      match r.path? with
      | none => .ok (.missing r.message?)
      | some path =>
          (isExpectedDirectory t raw source path).map fun isExpected =>
            if isExpected then .found path else .elsewhere path r.message?

/-- **Where the path of a link leads**: directly to a file, or else to what its name leads to. -/
def target (t : FileTree) (raw source : String) : Inquiry (Except SearchFailure Destination) :=
  match Resolution.direct? t raw source with
  | .error e => .answer (.error e)
  | .ok (some path) => .answer (.ok (.found path))
  | .ok none => do
      return (← .askFile (Path.fileName (decode raw))).bind (byName t raw source)

/-! ### Links to files -/

/-- An anchor with the mark that it is written with behind a path. -/
def anchorSuffix : Option String → String
  | none => ""
  | some a => if a = "" then "" else "#" ++ a

/-- **How the path of a link should be written instead**, to lead to a file at `resolved`.  Linked
directories are followed on both sides, but the document itself is not. -/
def conversion (t : FileTree) (raw : String) (anchor : Option String) (source resolved : String) :
    Except SearchFailure PathConversion := do
  let realSource := Path.join (← t.realPath (Path.directory source)) (Path.fileName source)
  return {
    written := raw ++ anchorSuffix anchor
    recommended :=
      Path.relativeToDocument t.cwdPath (← t.realPath resolved) realSource ++ anchorSuffix anchor }

/-- What is wrong when a file is found in another directory. -/
def elsewhereProblem (path : String) : String :=
  "Found via file index in different directory: " ++ path

/-- The verdict on a link whose path leads to a file: `outcome` if its anchor is there too.  A note
goes before what is wrong with the anchor. -/
def withAnchor (policy : SuggestionPolicy) (anchor : Option String) (path : String)
    (outcome : Verdict) (note : Option String) : Inquiry Verdict :=
  match anchor with
  | none => .answer outcome
  | some a =>
      if a = "" then .answer outcome
      else do
        match ← .askDocument path with
        | .error e => return .error ("Cannot read target file: " ++ path) (some e.message)
        | .ok d =>
            if d.hasAnchor a then return outcome
            else
              -- that the file lies elsewhere is said first
              let before := (note.map (· ++ ". ")).getD ""
              return .error (before ++ anchorProblem a) (some (d.suggestion policy a))

/-- The verdict on a link to a file, once it is known where its path leads. -/
def verdictAt (t : FileTree) (policy : SuggestionPolicy) (raw : String) (anchor : Option String)
    (source : String) : Destination → Inquiry (Except SearchFailure Verdict)
  | .found path => do
      return .ok (← withAnchor policy anchor path (.valid (some path)) none)
  | .elsewhere path message =>
      match conversion t raw anchor source path with
      | .error e => .answer (.error e)
      | .ok mended => do
          let problem := elsewhereProblem path
          return .ok (← withAnchor policy anchor path (.warning problem mended path message)
            (some problem))
  | .missing message =>
      let hint := message.getD "Check if file exists or fix path."
      .answer ((Resolution.trace t raw source).map fun trace =>
        .error ("File not found: " ++ raw) (some (hint ++ " " ++ trace)))

/-- **The verdict on a link to a file.** -/
def acrossDocuments (t : FileTree) (policy : SuggestionPolicy) (raw : String)
    (anchor : Option String) (source : String) : Inquiry (Except SearchFailure Verdict) := do
  match ← target t raw source with
  | .error e => return .error e
  | .ok destination => verdictAt t policy raw anchor source destination

/-! ### All links -/

/-- **The verdict on a link**, seen from the document at `source`.  A link within its document can
be checked only if the document can be read. -/
def check (t : FileTree) (policy : SuggestionPolicy) (source : String) (l : Link) :
    Inquiry (Except CheckFailure Verdict) :=
  match l.target.path with
  | some path => do
      return (← acrossDocuments t policy path.raw l.target.anchor source).mapError .search
  | none =>
      if l.kind = .caret then .answer (.ok (caretVerdict (l.target.anchor.getD "")))
      else do
        return ((← .askDocument source).mapError .unreadable).map fun d => inDocument policy d l

/-- The verdict on a link of a document that is at hand. -/
def checkOf (t : FileTree) (policy : SuggestionPolicy) (d : Document) (l : Link) :
    Inquiry (Except SearchFailure Verdict) :=
  match l.target.path with
  | some path => acrossDocuments t policy path.raw l.target.anchor l.source
  | none => .answer (.ok (inDocument policy d l))

/-- The links with their verdicts, if each has one; else the first failure. -/
def enrich : List Link → List (Except SearchFailure Verdict) → Except SearchFailure (List Link)
  | l :: ls, r :: rs => do
      let v ← r
      return { l with verdict := some v } :: (← enrich ls rs)
  | _, _ => .ok []

/-- **The links of a document with their verdicts.**  All links are checked, also where one of them
fails. -/
def checkAll (t : FileTree) (policy : SuggestionPolicy) (d : Document) :
    Inquiry (Except SearchFailure (List Link)) := do
  return enrich d.links (← .each (checkOf t policy d) d.links)

theorem enrich_cons_error (l : Link) (e : SearchFailure) (ls : List Link)
    (rs : List (Except SearchFailure Verdict)) : enrich (l :: ls) (.error e :: rs) = .error e :=
  rfl

theorem enrich_cons_ok (l : Link) (v : Verdict) (ls : List Link)
    (rs : List (Except SearchFailure Verdict)) :
    enrich (l :: ls) (.ok v :: rs) =
      (enrich ls rs).map fun enriched => { l with verdict := some v } :: enriched := by
  simp only [enrich]
  cases enrich ls rs <;> rfl

end Checking

end Citations

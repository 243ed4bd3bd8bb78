/-
**Sessions.**

A session remembers the documents it has read and the files of its scope.  It answers inquiries one
question after another; a document that was read once is not read again, even if its file has
changed since.

Main definitions:

* `Citations.Session` — what a session remembers;
* `Citations.Session.start` — a session that has read nothing yet;
* `Citations.Session.document`, `Citations.Session.find` — the answers to single questions;
* `Citations.Session.run` — the answer to an inquiry;
* `Citations.Session.validate` — checks all links of a document.

Main results:

* `Citations.Session.run_bind` — an inquiry in two parts is answered part by part.
-/

import Citations.Cache
import Citations.Checking

set_option relaxedAutoImplicit false
set_option autoImplicit false

namespace Citations

/-- A scope as the user names it, and the files in it. -/
structure Finder where
  scope : String
  index : FileIndex

/-- What a session remembers, and the choices that it was started with. -/
structure Session where
  dialect : Markdown.Dialect
  policy : SuggestionPolicy
  finder : Option Finder
  documents : Cache ReadFailure Document

namespace Session

/-- A session that has read nothing yet.  The scope is searched at once; an empty one is none. -/
def start (t : FileTree) (dialect : Markdown.Dialect) (policy : SuggestionPolicy)
    (scope : Option String) : Session where
  dialect := dialect
  policy := policy
  finder := (scope.filter (· ≠ "")).map fun s => ⟨s, FileIndex.ofScope t s⟩
  documents := .empty

/-! ### Single questions -/

/-- Reads and parses the document at a normalised path. -/
def load (t : FileTree) (s : Session) (key : String) : Except ReadFailure Document :=
  (t.readText key).map (Document.parse s.dialect t.cwdPath key)

/-- **The document at a path**, which is read if it was not read before. -/
def document (t : FileTree) (s : Session) (path : String) :
    Session × Except ReadFailure Document :=
  let r := s.documents.resolve (s.load t) (Path.absolute t.cwdPath path)
  ({ s with documents := r.1 }, r.2)

/-- **What a name leads to in the scope of the session**, if it has one; listing it anew may
fail. -/
def find (t : FileTree) (s : Session) (name : String) :
    Session × Except SearchFailure (Option NameResolution) :=
  match s.finder with
  | none => (s, .ok none)
  | some f =>
      let r := f.index.resolve t name (some f.scope)
      ({ s with finder := some { f with index := r.1 } }, r.2.map some)

/-! ### Inquiries -/

/-- **The answer to an inquiry**, one question after another. -/
def run {α : Type} (t : FileTree) : Session → Inquiry α → Session × α
  | s, .answer a => (s, a)
  | s, .document path next =>
      let r := s.document t path
      run t r.1 (next r.2)
  | s, .file name next =>
      let r := s.find t name
      run t r.1 (next r.2)

/-- An inquiry in two parts is answered part by part. -/
theorem run_bind {α β : Type} (t : FileTree) (s : Session) (q : Inquiry α) (f : α → Inquiry β) :
    s.run t (q.bind f) = (s.run t q).1.run t (f (s.run t q).2) := by
  induction q generalizing s with
  | answer a => rfl
  | document path next ih => exact ih _ _
  | file name next ih => exact ih _ _

/-- **Checks all links of the document at a path.** -/
def validate (t : FileTree) (s : Session) (path : String) :
    Session × Except CheckFailure (List Link) :=
  if t.isFile path then
    match s.document t path with
    | (s, .error e) => (s, .error (.unreadable e))
    | (s, .ok d) =>
        let r := s.run t (Checking.checkAll t s.policy d)
        (r.1, r.2.mapError .search)
  else (s, .error (.sourceNotFound path))

end Session

end Citations

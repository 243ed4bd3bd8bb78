/-
**Complete runs.**

Each run starts a session of its own from the settings, does one piece of work in it, and forgets
what it has read.

Main definitions:

* `Citations.Workflow.Failure` — why a run has no result;
* `Citations.Workflow.validate` — checks the links of a document;
* `Citations.Workflow.extractLinks`, `Citations.Workflow.extractSection`,
  `Citations.Workflow.extractFile` — extract what the links of a document cite, one section, or a
  whole file;
* `Citations.Workflow.outline` — the parts of a document.

Main results:

* `Citations.Workflow.exists_of_session` — a run starts a session of its own.
-/

import Citations.Extraction
import Citations.LineRange
import Citations.Link.Direct
import Citations.Session
import Citations.Settings

set_option relaxedAutoImplicit false
set_option autoImplicit false

namespace Citations.Workflow

/-- Why a run has no result. -/
inductive Failure where
  /-- There is no such Markdown dialect. -/
  | dialect (e : Markdown.Dialect.Error)
  /-- The scope cannot be listed. -/
  | scope (e : SearchFailure)
  /-- The document cannot be checked. -/
  | check (e : CheckFailure)
  /-- The user names nothing. -/
  | direct (e : Link.DirectError)
  deriving DecidableEq

/-- The session that the settings ask for.  A scope that is given apart from them prevails. -/
def session (t : FileTree) (settings : Settings) (scope : Option String) :
    Except Failure Session :=
  match Markdown.Dialect.named settings.parserConfig with
  | .error e => .error (.dialect e)
  | .ok dialect =>
      let scope := ((scope.filter (· ≠ "")).or settings.scopeDir).filter (· ≠ "")
      match scope.bind (FileIndex.failure? t) with
      | some e => .error (.scope e)
      | none => .ok (Session.start t dialect settings.policy scope)

/-- A run starts a session of its own, unless its scope cannot be listed. -/
theorem exists_of_session {t : FileTree} {settings : Settings} {scope : Option String} {s : Session}
    (h : session t settings scope = .ok s) :
    ∃ dialect chosen, Markdown.Dialect.named settings.parserConfig = .ok dialect ∧
      chosen.bind (FileIndex.failure? t) = none ∧
      s = Session.start t dialect settings.policy chosen := by
  unfold session at h
  split at h
  · cases h
  · rename_i dialect hdialect
    dsimp only at h
    split at h
    · cases h
    · rename_i hlisted
      exact ⟨dialect, _, hdialect, hlisted, (Except.ok.inj h).symm⟩

/-- Without settings, the session is of the usual dialect and looks for no file by name. -/
theorem session_default (t : FileTree) :
    session t {} none = .ok (Session.start t .standard ({} : Settings).policy none) := rfl

/-- **Checks the links of a document.** -/
def validate (t : FileTree) (settings : Settings) (scope : Option String) (path : String) :
    Except Failure (List Link) := do
  let s ← session t settings scope
  match (s.validate t path).2 with
  | .error e => .error (.check e)
  | .ok ls => .ok ls

/-- The links on the lines of a range; without a range, all of them. -/
def onLines (range : Option LineRange) (ls : List Link) : List Link :=
  ls.filter fun l => range.all (·.contains l.line)

/-- **Extracts what the links of a document cite.** -/
def extractLinks (t : FileTree) (settings : Settings) (scope : Option String) (path : String) :
    Except Failure Extraction := do
  let s ← session t settings scope
  match s.validate t path with
  | (_, .error e) => .error (.check e)
  | (s, .ok ls) => .ok (s.run t (extract Eligibility.defaultRules settings.fullFiles ls)).2

/-- Checks a link that stands in no document, and extracts what it cites. -/
def followDirect (t : FileTree) (s : Session) (fullFiles : Bool)
    (link : Except Link.DirectError Link) : Except Failure Extraction :=
  match link with
  | .error e => .error (.direct e)
  | .ok l =>
      match s.run t (Checking.check t s.policy l.source l) with
      | (_, .error e) => .error (.check e)
      | (s, .ok v) =>
          .ok (s.run t (extract Eligibility.defaultRules fullFiles
            [{ l with verdict := some v }])).2

/-- **Extracts one section of a file.** -/
def extractSection (t : FileTree) (settings : Settings) (scope : Option String)
    (path heading : String) : Except Failure Extraction := do
  let s ← session t settings scope
  followDirect t s settings.fullFiles (Link.toSection t.cwdPath t.cwdPath path heading)

/-- **Extracts a whole file**, for which no flag is needed. -/
def extractFile (t : FileTree) (settings : Settings) (scope : Option String) (path : String) :
    Except Failure Extraction := do
  let s ← session t settings scope
  followDirect t s true (Link.toFile t.cwdPath t.cwdPath path)

/-- **The parts of the document at a path**, which is taken as it is written. -/
def outline (t : FileTree) (settings : Settings) (path : String) : Except Failure Document :=
  match Markdown.Dialect.named settings.parserConfig with
  | .error e => .error (.dialect e)
  | .ok dialect =>
      match t.readText path with
      | .error e => .error (.check (.unreadable e))
      | .ok content => .ok (Document.parse dialect t.cwdPath path content)

end Citations.Workflow

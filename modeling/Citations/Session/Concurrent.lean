/-
**Inquiries that take turns.**

Several inquiries can be at work in one session.  Each goes on by a single question at a time; one
that asks for a document waits for its load, which it may share with others, while the rest go on in
any order.

Main definitions:

* `Citations.Task` — how far an inquiry has come;
* `Citations.Concurrent` — a session with the inquiries at work in it;
* `Citations.Concurrent.Event` — what can happen;
* `Citations.Concurrent.step?` — what a single event does, if it can happen;
* `Citations.Concurrent.Reachable` — what can come of the inquiries;
* `Citations.Concurrent.answers?` — what came of them, once all are answered;
* `Citations.Concurrent.checkingOf` — the checks of all links of a document at once.

Main results:

* `Citations.Concurrent.length_tasks_of_reachable` — no inquiry is lost and none is added.
-/

import Citations.Session

set_option relaxedAutoImplicit false
set_option autoImplicit false

namespace Citations

/-- How far an inquiry has come. -/
inductive Task (α : Type) where
  /-- It can go on. -/
  | ready (q : Inquiry α)
  /-- It waits for a load, to go on with the outcome. -/
  | waiting (load : Nat) (next : Except ReadFailure Document → Inquiry α)

/-- What came of an inquiry that has nothing left to ask. -/
def Task.answer? {α : Type} : Task α → Option α
  | .ready (.answer a) => some a
  | _ => none

/-- A session with the inquiries at work in it. -/
structure Concurrent (α : Type) where
  session : Session
  tasks : List (Task α)

namespace Concurrent

variable {α : Type}

/-- Inquiries that have not asked anything yet. -/
def start (s : Session) (qs : List (Inquiry α)) : Concurrent α := ⟨s, qs.map .ready⟩

/-- What came of the inquiries, once all of them are answered. -/
def answers? (c : Concurrent α) : Option (List α) := c.tasks.mapM Task.answer?

/-- The checks of all links of a document at once. -/
def checkingOf (t : FileTree) (s : Session) (d : Document) :
    Concurrent (Except SearchFailure Verdict) :=
  start s (d.links.map (Checking.checkOf t s.policy d))

/-! ### Events -/

/-- What can happen. -/
inductive Event where
  /-- An inquiry asks its next question. -/
  | ask (task : Nat)
  /-- A load begins. -/
  | start (load : Nat)
  /-- A load ends. -/
  | finish (load : Nat)
  /-- An inquiry hears of the outcome of the load that it waits for. -/
  | hear (task : Nat)

/-- An inquiry asks its next question.  What a name leads to is known at once, but a document has to
be waited for. -/
def ask (t : FileTree) (c : Concurrent α) (task : Nat) : Inquiry α → Option (Concurrent α)
  | .answer _ => none
  | .document path next =>
      let joined := c.session.documents.join (Path.absolute t.cwdPath path)
      some ⟨{ c.session with documents := joined.1 }, c.tasks.set task (.waiting joined.2 next)⟩
  | .file name next =>
      let r := c.session.find t name
      some ⟨r.1, c.tasks.set task (.ready (next r.2))⟩

/-- The session with another cache of documents. -/
def withDocuments (c : Concurrent α) (documents : Cache ReadFailure Document) : Concurrent α :=
  { c with session := { c.session with documents := documents } }

/-- **What a single event does**, if it can happen. -/
def step? (t : FileTree) (c : Concurrent α) : Event → Option (Concurrent α)
  | .ask task =>
      match c.tasks[task]? with
      | some (.ready q) => c.ask t task q
      | _ => none
  | .start load =>
      match c.session.documents.progress? load with
      | some .waiting => some (c.withDocuments (c.session.documents.begin load))
      | _ => none
  | .finish load =>
      match c.session.documents.loads[load]? with
      | some ⟨key, .running⟩ =>
          some (c.withDocuments (c.session.documents.finish load (c.session.load t key)))
      | _ => none
  | .hear task =>
      match c.tasks[task]? with
      | some (.waiting load next) =>
          (c.session.documents.outcome? load).map fun outcome =>
            { c with tasks := c.tasks.set task (.ready (next outcome)) }
      | _ => none

/-- What can come of the inquiries, in any order of events. -/
inductive Reachable (t : FileTree) (c : Concurrent α) : Concurrent α → Prop where
  | refl : Reachable t c c
  | step {d e : Concurrent α} {ev : Event} :
      Reachable t c d → d.step? t ev = some e → Reachable t c e

/-! ### The number of inquiries -/

theorem length_tasks_ask {t : FileTree} {c d : Concurrent α} {task : Nat} {q : Inquiry α}
    (h : c.ask t task q = some d) : d.tasks.length = c.tasks.length := by
  cases q with
  | answer a => cases h
  | document path next =>
      cases h
      simp
  | file name next =>
      cases h
      simp

theorem length_tasks_step? {t : FileTree} {c d : Concurrent α} {ev : Event}
    (h : c.step? t ev = some d) : d.tasks.length = c.tasks.length := by
  cases ev with
  | ask task =>
      simp only [step?] at h
      split at h
      · exact length_tasks_ask h
      · cases h
  | start load =>
      simp only [step?] at h
      split at h
      · cases h
        rfl
      · cases h
  | finish load =>
      simp only [step?] at h
      split at h
      · cases h
        rfl
      · cases h
  | hear task =>
      simp only [step?] at h
      split at h
      · obtain ⟨outcome, _, rfl⟩ := Option.map_eq_some_iff.1 h
        simp
      · cases h

/-- No inquiry is lost and none is added. -/
theorem length_tasks_of_reachable {t : FileTree} {c d : Concurrent α} (h : Reachable t c d) :
    d.tasks.length = c.tasks.length := by
  induction h with
  | refl => rfl
  | step _ hs ih => exact (length_tasks_step? hs).trans ih

end Concurrent

end Citations

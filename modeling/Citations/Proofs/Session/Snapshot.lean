/-
**What a session gives of files that change.**

Between the calls to a session files may be written and removed.  A session takes notice of that
only as long as it has not been able to read a document: the first time that it can, it reads the
document for good, and gives the very same one from then on.  So what it remembers at any time is
told by a log of what was asked for and of the files at the time, whoever asked: somebody who wanted
the document, a check of a link, or an extraction, by itself or in turns with others.

Main definitions:

* `Citations.Request`, `Citations.firstRead?` — what was asked for, and the document as it was when
  it could first be read;
* `Citations.Session.requests`, `Citations.Concurrent.Logged` — what inquiries ask for;
* `Citations.Session.Logged` — **a session and the log of what was asked for**;
* `Citations.Session.Recalls` — what a session remembers of its log.

Main results:

* `Citations.Concurrent.Logged.recalls` — what is remembered when inquiries have taken turns;
* `Citations.Concurrent.isIdle_of_answers?` — inquiries that are answered leave no load under way;
* `Citations.Session.Logged.document`, `Citations.Session.Logged.validate`,
  `Citations.Session.Logged.checkingOf` — the calls to a session are in its log;
* `Citations.Session.document_snapshot` — **a session gives the document as it was when it was first
  read, and the very same one ever after**.
-/

import Citations.Proofs.Cache.Pending
import Citations.Proofs.Checking.Run
import Citations.Proofs.Session.Steady
import Citations.Proofs.Session.Turns

set_option relaxedAutoImplicit false
set_option autoImplicit false

namespace Citations

/-! ### Logs -/

/-- A document that was asked for by its key, and the files at that time. -/
structure Request where
  files : FileTree
  key : String

/-- What reading the document came to at that time. -/
def Request.outcome (dialect : Markdown.Dialect) (r : Request) : Except ReadFailure Document :=
  (r.files.readText r.key).map (Document.parse dialect r.files.cwdPath r.key)

section FirstRead

variable (dialect : Markdown.Dialect) {log : List Request} {key : String} {t : FileTree}

/-- **A document as it was when it could first be read**, of all times when it was asked for. -/
def firstRead? (log : List Request) (key : String) : Option Document :=
  log.findSome? fun r => if r.key = key then (r.outcome dialect).toOption else none

theorem firstRead?_append (log more : List Request) (key : String) :
    firstRead? dialect (log ++ more) key =
      (firstRead? dialect log key).or (firstRead? dialect more key) :=
  List.findSome?_append

theorem firstRead?_singleton (r : Request) (key : String) :
    firstRead? dialect [r] key = if r.key = key then (r.outcome dialect).toOption else none := by
  rw [firstRead?, List.findSome?_singleton]

/-- While the files stay as they are, reading a document comes to the same at any time. -/
theorem firstRead?_of_files (hfiles : ∀ r ∈ log, r.files = t) (hasked : ∃ r ∈ log, r.key = key) :
    firstRead? dialect log key = (Request.outcome dialect ⟨t, key⟩).toOption := by
  cases hout : (Request.outcome dialect ⟨t, key⟩).toOption with
  | none =>
      refine List.findSome?_eq_none_iff.2 fun r hr => ?_
      split
      · rename_i hkey
        subst hkey
        rw [← hout, ← hfiles r hr]
      · rfl
  | some d =>
      cases hread : firstRead? dialect log key with
      | none =>
          obtain ⟨r, hr, rfl⟩ := hasked
          have hnone := List.findSome?_eq_none_iff.1 hread r hr
          rw [if_pos rfl] at hnone
          rw [← hfiles r hr, hnone] at hout
          cases hout
      | some d' =>
          obtain ⟨r, hr, hd'⟩ := List.exists_of_findSome?_eq_some hread
          split at hd'
          · rename_i hkey
            subst hkey
            rw [← hfiles r hr, hd'] at hout
            exact hout
          · cases hd'

end FirstRead

/-! ### One inquiry after another -/

namespace Session

variable {s u v : Session} {t : FileTree} {log : List Request}

/-- What an inquiry asks for. -/
def requests {α : Type} (t : FileTree) : Session → Inquiry α → List Request
  | _, .answer _ => []
  | s, .document path next =>
      ⟨t, Path.absolute t.cwdPath path⟩ ::
        requests t (s.document t path).1 (next (s.document t path).2)
  | s, .file name next => requests t (s.find t name).1 (next (s.find t name).2)

theorem load_eq_outcome (t : FileTree) (s : Session) (key : String) :
    s.load t key = Request.outcome s.dialect ⟨t, key⟩ := rfl

/-- What is remembered when a document was asked for: what was remembered before, or else what
reading it came to. -/
theorem Sound.kept?_document_eq (hs : s.Sound) (t : FileTree) (path key : String) :
    (s.document t path).1.documents.kept? key =
      (s.documents.kept? key).or
        (firstRead? s.dialect [⟨t, Path.absolute t.cwdPath path⟩] key) := by
  rw [hs.kept?_document, firstRead?_singleton]
  by_cases hkey : key = Path.absolute t.cwdPath path
  · subst hkey
    rw [if_pos rfl, if_pos rfl, hs.document_snd, load_eq_outcome]
    cases s.documents.kept? (Path.absolute t.cwdPath path) with
    | some d => simp [Except.toOption]
    | none => simp
  · rw [if_neg hkey, if_neg (Ne.symm hkey), Option.or_none]

theorem dialect_find (s : Session) (t : FileTree) (name : String) :
    (s.find t name).1.dialect = s.dialect :=
  dialect_run (.file name .answer)

/-- **What is remembered when an inquiry was answered** is told by what it has asked for. -/
theorem Sound.kept?_run_eq {α : Type} (hs : s.Sound) (t : FileTree) (q : Inquiry α) (key : String) :
    (s.run t q).1.documents.kept? key =
      (s.documents.kept? key).or (firstRead? s.dialect (s.requests t q) key) := by
  induction q generalizing s with
  | answer a => exact (Option.or_none).symm
  | document path next ih =>
      have hrequests : s.requests t (.document path next) =
          [⟨t, Path.absolute t.cwdPath path⟩] ++
            (s.document t path).1.requests t (next (s.document t path).2) := rfl
      refine (ih _ (hs.document t path)).trans ?_
      rw [hs.kept?_document_eq, Option.or_assoc, hrequests, firstRead?_append]
      rfl
  | file name next ih =>
      refine (ih _ (hs.find t name)).trans ?_
      rw [documents_find, dialect_find]
      rfl

/-- Whether no load is under way in a session. -/
def IsIdle (s : Session) : Prop := ∀ key, ¬ s.documents.IsPending key

theorem isIdle_start (t : FileTree) (dialect : Markdown.Dialect) (policy : SuggestionPolicy)
    (scope : Option String) : (start t dialect policy scope).IsIdle :=
  fun _ => Cache.not_isPending_empty

theorem Sound.isIdle_run {α : Type} (hs : s.Sound) (hidle : s.IsIdle) (t : FileTree)
    (q : Inquiry α) : (s.run t q).1.IsIdle := by
  induction q generalizing s with
  | answer a => exact hidle
  | document path next ih =>
      exact ih _ (hs.document t path) fun key => hs.consistent.not_isPending_resolve (hidle key) _ _
  | file name next ih =>
      refine ih _ (hs.find t name) fun key => ?_
      rw [documents_find]
      exact hidle key

/-- A load that has come to an end stays as it is. -/
theorem Sound.loads_run {α : Type} (hs : s.Sound) (t : FileTree) (q : Inquiry α) {id : Nat}
    {l : Load ReadFailure Document} (hl : s.documents.loads[id]? = some l)
    (hdone : l.progress.outcome? ≠ none) : (s.run t q).1.documents.loads[id]? = some l := by
  induction q generalizing s with
  | answer a => exact hl
  | document path next ih =>
      exact ih _ (hs.document t path) (hs.consistent.loads_resolve hl hdone _ _)
  | file name next ih => exact ih _ (hs.find t name) (by rw [documents_find, hl])

/-! ### What is remembered of a log -/

/-- **What a session remembers of its log**, since it was `s`. -/
structure Recalls (s : Session) (log : List Request) (u : Session) : Prop where
  sound : u.Sound
  idle : u.IsIdle
  dialect : u.dialect = s.dialect
  kept : ∀ key, u.documents.kept? key =
    (s.documents.kept? key).or (firstRead? s.dialect log key)

theorem Recalls.trans {more : List Request} (h : s.Recalls log u) (h' : u.Recalls more v) :
    s.Recalls (log ++ more) v := by
  refine ⟨h'.sound, h'.idle, h'.dialect.trans h.dialect, fun key => ?_⟩
  rw [h'.kept, h.kept, h.dialect, firstRead?_append, Option.or_assoc]

/-- An inquiry is remembered by what it has asked for. -/
theorem Sound.recalls_run {α : Type} (hs : s.Sound) (hidle : s.IsIdle) (t : FileTree)
    (q : Inquiry α) : s.Recalls (s.requests t q) (s.run t q).1 :=
  ⟨hs.run t q, hs.isIdle_run hidle t q, dialect_run q, hs.kept?_run_eq t q⟩

/-- What has become of a key since the session was `s`: what is remembered of it is told by the log,
unless a load of it is under way. -/
def Awaits (s : Session) (log : List Request) (cache : Cache ReadFailure Document)
    (key : String) : Prop :=
  (¬ cache.IsPending key ∧
      cache.kept? key = (s.documents.kept? key).or (firstRead? s.dialect log key)) ∨
    cache.IsPending key ∧ s.documents.kept? key = none ∧ ∃ r ∈ log, r.key = key

/-- Asking for a document starts its load, unless it is remembered or a load is under way. -/
theorem Awaits.join {cache : Cache ReadFailure Document} (hc : cache.Consistent) {key : String}
    (h : s.Awaits log cache key) (r : Request) :
    s.Awaits (log ++ [r]) (cache.join r.key).1 key := by
  by_cases hkey : key = r.key
  · subst hkey
    rcases h with ⟨hidle, hkept⟩ | ⟨hpending, hnone, -⟩
    · rw [Awaits, hc.kept?_join, firstRead?_append, ← Option.or_assoc, ← hkept]
      cases hk : cache.kept? r.key with
      | some d =>
          refine .inl ⟨(hc.join r.key).not_isPending_of_kept? (a := d) ?_, rfl⟩
          rw [hc.kept?_join, hk]
      | none =>
          rw [hk] at hkept
          exact .inr ⟨hc.isPending_join hk, (Option.or_eq_none_iff.1 hkept.symm).1, r, by simp⟩
    · exact .inr ⟨hpending.join r.key, hnone, r, by simp⟩
  · rw [Awaits, Cache.isPending_join_of_ne hkey, hc.kept?_join, firstRead?_append,
      firstRead?_singleton, if_neg (Ne.symm hkey), Option.or_none]
    refine h.imp_right fun ⟨hpending, hnone, r', hr', hkey'⟩ => ⟨hpending, hnone, r', ?_, hkey'⟩
    exact List.mem_append_left _ hr'

/-- The end of a load gives what the log tells of its key. -/
theorem Awaits.finish {cache : Cache ReadFailure Document} (hc : cache.Consistent)
    {ended key : String} {load : Nat} (hl : cache.loads[load]? = some ⟨ended, .running⟩)
    (hfiles : ∀ r ∈ log, r.files = t) (h : s.Awaits log cache key) :
    s.Awaits log (cache.finish load (Request.outcome s.dialect ⟨t, ended⟩)) key := by
  rw [Awaits, hc.isPending_finish hl rfl, hc.kept?_finish hl rfl]
  by_cases hkey : key = ended
  · subst hkey
    have hpending : cache.IsPending key := ⟨load, .running, hl, rfl⟩
    rcases h with ⟨hidle, -⟩ | ⟨-, hnone, hasked⟩
    · exact absurd hpending hidle
    · refine .inl ⟨fun hother => hother.1 rfl, ?_⟩
      rw [if_pos rfl, hnone, firstRead?_of_files _ hfiles hasked, Option.none_or]
  · rw [if_neg hkey]
    exact h.imp (.imp_left fun hidle hother => hidle hother.2) (.imp_left fun hp => ⟨hkey, hp⟩)

end Session

/-! ### Inquiries that take turns -/

namespace Concurrent

variable {α : Type} {t : FileTree} {c d : Concurrent α} {log : List Request}

/-- What is asked for in an event. -/
def requested (t : FileTree) (c : Concurrent α) : Event → List Request
  | .ask task =>
      match c.tasks[task]? with
      | some (.ready (.document path _)) => [⟨t, Path.absolute t.cwdPath path⟩]
      | _ => []
  | _ => []

/-- What can come of the inquiries, and what they have asked for. -/
inductive Logged (t : FileTree) (c : Concurrent α) : List Request → Concurrent α → Prop where
  | refl : Logged t c [] c
  | step {log : List Request} {d e : Concurrent α} {ev : Event} :
      Logged t c log d → d.step? t ev = some e → Logged t c (log ++ d.requested t ev) e

theorem Logged.reachable (h : c.Logged t log d) : Reachable t c d := by
  induction h with
  | refl => exact .refl
  | step _ hstep ih => exact ih.step hstep

theorem files_of_mem_requested {ev : Event} {r : Request} (h : r ∈ c.requested t ev) :
    r.files = t := by
  unfold requested at h
  split at h
  · split at h
    · rw [List.mem_singleton.1 h]
    · cases h
  · cases h

/-- The files stay as they are. -/
theorem Logged.files_eq (h : c.Logged t log d) : ∀ r ∈ log, r.files = t := by
  induction h with
  | refl => simp
  | step _ _ ih =>
      intro r hr
      rcases List.mem_append.1 hr with hr | hr
      · exact ih r hr
      · exact files_of_mem_requested hr

/-- **What becomes of a key in an event.** -/
theorem Step.awaits {ev : Event} (h : c.Step t ev d) {s : Session} (hs : c.session.Sound)
    (hdialect : c.session.dialect = s.dialect) (hfiles : ∀ r ∈ log, r.files = t) {key : String}
    (hkey : s.Awaits log c.session.documents key) :
    s.Awaits (log ++ c.requested t ev) d.session.documents key := by
  cases h with
  | @document task path next htask =>
      have hrequested : c.requested t (.ask task) = [⟨t, Path.absolute t.cwdPath path⟩] := by
        simp only [requested, htask]
      rw [hrequested]
      exact hkey.join hs.consistent ⟨t, Path.absolute t.cwdPath path⟩
  | @file task name next htask =>
      have hrequested : c.requested t (.ask task) = [] := by simp only [requested, htask]
      rw [hrequested, List.append_nil]
      change s.Awaits log (c.session.find t name).1.documents key
      rwa [Session.documents_find]
  | @start load begun hl =>
      have hrequested : c.requested t (.start load) = [] := rfl
      rw [hrequested, List.append_nil, withDocuments, Session.Awaits, Cache.isPending_begin hl,
        hs.consistent.kept?_begin hl]
      exact hkey
  | @finish load ended hl =>
      have hrequested : c.requested t (.finish load) = [] := rfl
      rw [hrequested, List.append_nil, withDocuments, Session.load_eq_outcome, hdialect]
      exact hkey.finish hs.consistent hl hfiles
  | @hear task load ended next outcome _ _ =>
      have hrequested : c.requested t (.hear task) = [] := rfl
      rw [hrequested, List.append_nil]
      exact hkey

theorem Logged.awaits (h : c.Logged t log d) (hs : c.session.Sound) (hidle : c.session.IsIdle) :
    d.session.dialect = c.session.dialect ∧
      ∀ key, c.session.Awaits log d.session.documents key := by
  induction h with
  | refl => exact ⟨rfl, fun key => .inl ⟨hidle key, (Option.or_none).symm⟩⟩
  | step hd hstep ih =>
      have hsound := (Session.LeadsTo.turns .refl hd.reachable).sound hs
      have hstep := Step.of_step? hstep
      exact ⟨(Session.dialect_step hstep).trans ih.1,
        fun key => hstep.awaits hsound ih.1 hd.files_eq (ih.2 key)⟩

/-- **What is remembered when inquiries have taken turns** is told by what they have asked for. -/
theorem Logged.recalls (h : c.Logged t log d) (hs : c.session.Sound) (hidle : c.session.IsIdle)
    (hend : d.session.IsIdle) : c.session.Recalls log d.session := by
  have ⟨hdialect, hawaits⟩ := h.awaits hs hidle
  refine ⟨(Session.LeadsTo.turns .refl h.reachable).sound hs, hend, hdialect, fun key => ?_⟩
  rcases hawaits key with ⟨-, hkept⟩ | ⟨hpending, -⟩
  · exact hkept
  · exact absurd hpending (hend key)

/-- A load that has come to an end stays as it is. -/
theorem Step.loads_of_done {ev : Event} (h : c.Step t ev d) {id : Nat}
    {l : Load ReadFailure Document} (hl : c.session.documents.loads[id]? = some l)
    (hdone : l.progress.outcome? ≠ none) : d.session.documents.loads[id]? = some l := by
  cases h with
  | document _ => exact Cache.loads_join_of_loads hl _
  | file _ => exact (congrArg (·.loads[id]?) (Session.documents_find _ _ _)).trans hl
  | start hother =>
      rw [withDocuments, Cache.begin, Cache.loads_note hother, if_neg, hl]
      rintro rfl
      rw [hl] at hother
      cases hother
      exact hdone rfl
  | finish hother => exact Cache.loads_finish_of_done hl hother rfl hdone _
  | hear _ _ => exact hl

theorem Reachable.loads_of_done (h : Reachable t c d) {id : Nat}
    {l : Load ReadFailure Document} (hl : c.session.documents.loads[id]? = some l)
    (hdone : l.progress.outcome? ≠ none) : d.session.documents.loads[id]? = some l := by
  induction h with
  | refl => exact hl
  | step _ hstep ih => exact (Step.of_step? hstep).loads_of_done ih hdone

/-! ### Inquiries that are answered -/

/-- Somebody waits for each load that is under way. -/
def AllAwaited (c : Concurrent α) : Prop :=
  ∀ (load : Nat) (l : Load ReadFailure Document), c.session.documents.loads[load]? = some l →
    l.progress.outcome? = none → ∃ (k : Nat) (next : Except ReadFailure Document → Inquiry α),
      c.tasks[k]? = some (.waiting load next)

/-- Whoever waits goes on waiting when another task goes on. -/
theorem waiting_set {k j load : Nat} {task other : Task α}
    {next : Except ReadFailure Document → Inquiry α} (htask : c.tasks[k]? = some task)
    (hne : task ≠ .waiting load next) (hj : c.tasks[j]? = some (.waiting load next)) :
    (c.tasks.set k other)[j]? = some (.waiting load next) := by
  rw [getElem?_set_of_getElem? htask, if_neg, hj]
  rintro rfl
  rw [htask] at hj
  exact hne (Option.some.inj hj)

theorem AllAwaited.step {ev : Event} (hc : c.AllAwaited) (h : c.Step t ev d) : d.AllAwaited := by
  intro load l hl hpending
  cases h with
  | document htask =>
      rcases Cache.loads_join_cases hl with hold | ⟨rfl, -⟩
      · obtain ⟨j, next, hj⟩ := hc load l hold hpending
        exact ⟨j, next, waiting_set htask (by simp) hj⟩
      · exact ⟨_, _, by rw [getElem?_set_of_getElem? htask, if_pos rfl]⟩
  | file htask =>
      have hold : c.session.documents.loads[load]? = some l := by
        rw [← Session.documents_find c.session t]
        exact hl
      obtain ⟨j, next, hj⟩ := hc load l hold hpending
      exact ⟨j, next, waiting_set htask (by simp) hj⟩
  | start hbegun =>
      change (c.session.documents.begin _).loads[load]? = some l at hl
      rw [Cache.begin, Cache.loads_note hbegun] at hl
      split at hl
      · rename_i hload
        subst hload
        exact hc _ _ hbegun rfl
      · exact hc load l hl hpending
  | finish hended =>
      change (c.session.documents.finish _ _).loads[load]? = some l at hl
      rw [Cache.loads_finish hended] at hl
      split at hl
      · cases hl
        cases hpending
      · exact hc load l hl hpending
  | hear htask hdone =>
      obtain ⟨j, next, hj⟩ := hc load l hl hpending
      refine ⟨j, next, waiting_set htask ?_ hj⟩
      -- the load that was heard of has come to an end
      rintro h
      cases h
      rw [hl] at hdone
      cases hdone
      cases hpending

/-- **Inquiries that are answered leave no load under way.** -/
theorem isIdle_of_answers? {s : Session} {qs : List (Inquiry α)} (hidle : s.IsIdle)
    (h : Reachable t (start s qs) c) {as : List α} (has : c.answers? = some as) :
    c.session.IsIdle := by
  have hawaited : c.AllAwaited := by
    clear has
    induction h with
    | refl => exact fun load l hl hpending => absurd ⟨load, l.progress, hl, hpending⟩ (hidle l.key)
    | step _ hstep ih => exact ih.step (.of_step? hstep)
  rintro key ⟨load, p, hl, hpending⟩
  obtain ⟨k, next, hk⟩ := hawaited load _ hl hpending
  rw [answers?_eq_some_iff.1 has, List.getElem?_map] at hk
  obtain ⟨a, -, ha⟩ := Option.map_eq_some_iff.1 hk
  cases ha

end Concurrent

/-! ### Calls to a session -/

namespace Session

variable {s u : Session} {t : FileTree} {log : List Request}

/-- **A session and the log of what was asked for** since it was `s`.  The files may change between
inquiries, and between calls that let several of them take turns. -/
inductive Logged (s : Session) : List Request → Session → Prop where
  | refl : Logged s [] s
  | run {α : Type} {log : List Request} {u : Session} (t : FileTree) (q : Inquiry α) :
      Logged s log u → Logged s (log ++ u.requests t q) (u.run t q).1
  | turns {α : Type} {log more : List Request} {c d : Concurrent α} (t : FileTree) :
      Logged s log c.session → Concurrent.Logged t c more d → d.session.IsIdle →
        Logged s (log ++ more) d.session

namespace Logged

/-- Somebody asks for a document. -/
theorem document (h : s.Logged log u) (t : FileTree) (path : String) :
    s.Logged (log ++ [⟨t, Path.absolute t.cwdPath path⟩]) (u.document t path).1 :=
  h.run t (.askDocument path)

/-- The links of a document are checked one after another. -/
theorem validate (h : s.Logged log u) (t : FileTree) (path : String) :
    s.Logged (log ++ u.requests t (Checking.validation t u.policy path)) (u.validate t path).1 := by
  rw [validate_eq_run]
  exact h.run t _

/-- **What a session remembers is told by its log.** -/
theorem recalls (h : s.Logged log u) (hs : s.Sound) (hidle : s.IsIdle) : s.Recalls log u := by
  induction h with
  | refl => exact ⟨hs, hidle, rfl, fun key => (Option.or_none).symm⟩
  | run t q _ ih => exact ih.trans (ih.sound.recalls_run ih.idle t q)
  | turns t _ hturns hend ih => exact ih.trans (hturns.recalls ih.sound ih.idle hend)

/-- All links of a document are checked at once. -/
theorem checkingOf (h : s.Logged log u) (hs : s.Sound) (hidle : s.IsIdle) {path : String}
    {d : Document} {more : List Request} {c : Concurrent (Except SearchFailure Verdict)}
    (hc : Concurrent.Logged t (.checkingOf t (u.document t path).1 d) more c)
    {rs : List (Except SearchFailure Verdict)} (hrs : c.answers? = some rs) :
    s.Logged (log ++ [⟨t, Path.absolute t.cwdPath path⟩] ++ more) c.session := by
  have hdocument := h.document t path
  refine turns (c := .checkingOf t (u.document t path).1 d) t hdocument hc ?_
  exact Concurrent.isIdle_of_answers? (hdocument.recalls hs hidle).idle hc.reachable hrs

/-- A load that has come to an end stays as it is. -/
theorem loads_of_done (h : s.Logged log u) (hs : s.Sound) (hidle : s.IsIdle) {id : Nat}
    {l : Load ReadFailure Document} (hl : s.documents.loads[id]? = some l)
    (hdone : l.progress.outcome? ≠ none) : u.documents.loads[id]? = some l := by
  induction h with
  | refl => exact hl
  | run t q h ih => exact (h.recalls hs hidle).sound.loads_run t q ih hdone
  | turns t _ hturns _ ih => exact hturns.reachable.loads_of_done ih hdone

end Logged

/-- A document that was given is the very same ever after: one load brings it for good. -/
theorem Sound.exists_load_of_document (hs : s.Sound) (hidle : s.IsIdle) {path : String}
    {d : Document} (hd : (s.document t path).2 = .ok d) :
    ∃ load, ∀ more u, (s.document t path).1.Logged more u →
      u.documents.entryOf? (Path.absolute t.cwdPath path) = some load ∧
      u.documents.loads[load]? = some ⟨Path.absolute t.cwdPath path, .done (.ok d)⟩ ∧
      ∀ t' path', Path.absolute t'.cwdPath path' = Path.absolute t.cwdPath path →
        (u.document t' path').2 = .ok d := by
  have hs₁ := hs.document t path
  have hidle₁ : (s.document t path).1.IsIdle := hs.isIdle_run hidle t (.askDocument path)
  have hkept : (s.document t path).1.documents.kept? (Path.absolute t.cwdPath path) = some d := by
    rw [hs.kept?_document, if_pos rfl, hd]
    rfl
  obtain ⟨load, hl⟩ := hs₁.consistent.kept?_eq_some_iff.1 hkept
  refine ⟨load, fun more u hu => ?_⟩
  have hsu := (hu.recalls hs₁ hidle₁).sound
  have hlu := hu.loads_of_done hs₁ hidle₁ hl (by simp [Progress.outcome?])
  refine ⟨hsu.consistent.entryOf?_eq_some_iff.2 ⟨_, hlu, rfl⟩, hlu, fun t' path' hkey => ?_⟩
  rw [hsu.document_snd, hkey, hsu.consistent.kept?_eq_some_iff.2 ⟨load, hlu⟩]
  rfl

/-- **A session gives a document as it was when it was first read**; as long as it could not be
read, it is given as the files have it now.  It is given exactly if it could be read by then, and
once given, the very same one is given ever after. -/
theorem document_snapshot {t₀ : FileTree} {dialect : Markdown.Dialect} {policy : SuggestionPolicy}
    {scope : Option String} (h : (start t₀ dialect policy scope).Logged log s) (t : FileTree)
    (path : String) :
    (s.document t path).2 = ((firstRead? dialect log (Path.absolute t.cwdPath path)).map .ok).getD
        (Request.outcome dialect ⟨t, Path.absolute t.cwdPath path⟩) ∧
      (s.document t path).2.toOption =
        firstRead? dialect (log ++ [⟨t, Path.absolute t.cwdPath path⟩])
          (Path.absolute t.cwdPath path) ∧
      ∀ d, (s.document t path).2 = .ok d → ∃ load, ∀ more u,
        (s.document t path).1.Logged more u →
          u.documents.entryOf? (Path.absolute t.cwdPath path) = some load ∧
          u.documents.loads[load]? = some ⟨Path.absolute t.cwdPath path, .done (.ok d)⟩ ∧
          ∀ t' path', Path.absolute t'.cwdPath path' = Path.absolute t.cwdPath path →
            (u.document t' path').2 = .ok d := by
  have hrecalls := h.recalls (sound_start ..) (isIdle_start t₀ dialect policy scope)
  have hs := hrecalls.sound
  have hdialect : s.dialect = dialect := hrecalls.dialect
  have hkept₀ : s.documents.kept? (Path.absolute t.cwdPath path) =
      firstRead? dialect log (Path.absolute t.cwdPath path) := hrecalls.kept _
  refine ⟨?given, ?success, ?later⟩
  case given => rw [hs.document_snd, load_eq_outcome, hdialect, hkept₀]
  case success =>
    have hkept₁ := hs.kept?_document t path (Path.absolute t.cwdPath path)
    rw [if_pos rfl, hs.kept?_document_eq, hdialect, hkept₀] at hkept₁
    rw [firstRead?_append, ← hkept₁]
  case later => exact fun d hd => hs.exists_load_of_document hrecalls.idle hd

/-- A document that links to a section of a draft, and the draft if it is there. -/
def draft (text? : Option String) : FileTree where
  cwd := []
  nodes := (["s.md"], .file "[x](a.md#One)\n".toUTF8.toList) ::
    (text?.map fun text => (["a.md"], .file text.toUTF8.toList)).toList

/-- A session that starts before there is a draft. -/
def draftSession : Session := start (draft none) .standard ⟨.finite false 0, 5⟩ none

/-- A draft that was not there at first is read when a link to it is checked, and neither rewriting
nor removing it makes a difference from then on. -/
theorem document_snapshot_draft :
    let failed := draftSession.document (draft none) "/a.md"
    let checked := failed.1.validate (draft (some "# One\n")) "/s.md"
    let rewritten := checked.1.document (draft (some "# Two\n")) "/a.md"
    failed.2.toOption = none ∧ ∃ d, d.content = "# One\n" ∧ rewritten.2 = .ok d ∧
      ∀ more u, rewritten.1.Logged more u → (u.document (draft none) "/a.md").2 = .ok d := by
  intro failed checked rewritten
  have hlog : draftSession.Logged ([⟨draft none, "/a.md"⟩] ++
      failed.1.requests (draft (some "# One\n"))
        (Checking.validation (draft (some "# One\n")) draftSession.policy "/s.md")) checked.1 :=
    (Logged.refl.document (draft none) "/a.md").validate (draft (some "# One\n")) "/s.md"
  obtain ⟨hgiven, -, hlater⟩ := document_snapshot hlog (draft (some "# Two\n")) "/a.md"
  have hfirst : (firstRead? .standard ([⟨draft none, "/a.md"⟩] ++
      failed.1.requests (draft (some "# One\n"))
        (Checking.validation (draft (some "# One\n")) draftSession.policy "/s.md")) "/a.md").map
          Document.content = some "# One\n" := by decide +kernel
  obtain ⟨d, hd, hcontent⟩ := Option.map_eq_some_iff.1 hfirst
  have hok : rewritten.2 = .ok d := by
    refine hgiven.trans ?_
    have hkey : Path.absolute (draft (some "# Two\n")).cwdPath "/a.md" = "/a.md" := by
      decide +kernel
    rw [hkey, hd]
    rfl
  obtain ⟨load, hload⟩ := hlater d hok
  exact ⟨by decide +kernel, d, hcontent, hok, fun more u hu =>
    (hload more u hu).2.2 (draft none) "/a.md" rfl⟩

end Session

end Citations

/-
**Inquiries that take turns.**

While the files stay as they are, a session gives the same answers at any time, whatever else it is
asked.  So an inquiry that takes turns with others comes to what it would come to by itself: the
load that it waits for may have been begun for another one, but it brings the document that the
inquiry asked for.  And no inquiry is ever held up for good; whatever has happened so far, all of
them can still come to an end.

Main definitions:

* `Citations.Concurrent.Step` — **what an event does**, case by case;
* `Citations.Session.LeadsTo` — what becomes of a session while the files stay as they are;
* `Citations.Task.HeadsFor` — what a task will come to, however far it has come.

Main results:

* `Citations.Session.LeadsTo.document_snd`, `Citations.Session.LeadsTo.find_snd` — the answers to
  single questions stay the same;
* `Citations.Concurrent.answers_eq` — **whichever way inquiries take turns, they come to what each
  of them would come to by itself**;
* `Citations.Concurrent.exists_answers` — all of them can come to an end at any time.
-/

import Citations.Proofs.Session.Listing

set_option relaxedAutoImplicit false
set_option autoImplicit false

namespace Citations

/-! ### Events -/

namespace Concurrent

variable {α : Type} {t : FileTree} {c d : Concurrent α}

/-- **What an event does**, case by case. -/
inductive Step (t : FileTree) (c : Concurrent α) : Event → Concurrent α → Prop where
  /-- An inquiry asks for a document, and waits for its load from then on. -/
  | document {task : Nat} {path : String} {next : Except ReadFailure Document → Inquiry α} :
      c.tasks[task]? = some (.ready (.document path next)) →
      Step t c (.ask task)
        ⟨{ c.session with
            documents := (c.session.documents.join (Path.absolute t.cwdPath path)).1 },
          c.tasks.set task
            (.waiting (c.session.documents.join (Path.absolute t.cwdPath path)).2 next)⟩
  /-- An inquiry asks what a name leads to. -/
  | file {task : Nat} {name : String}
      {next : Except SearchFailure (Option NameResolution) → Inquiry α} :
      c.tasks[task]? = some (.ready (.file name next)) →
      Step t c (.ask task)
        ⟨(c.session.find t name).1, c.tasks.set task (.ready (next (c.session.find t name).2))⟩
  /-- A load begins. -/
  | start {load : Nat} {key : String} : c.session.documents.loads[load]? = some ⟨key, .waiting⟩ →
      Step t c (.start load) (c.withDocuments (c.session.documents.begin load))
  /-- A load ends. -/
  | finish {load : Nat} {key : String} : c.session.documents.loads[load]? = some ⟨key, .running⟩ →
      Step t c (.finish load)
        (c.withDocuments (c.session.documents.finish load (c.session.load t key)))
  /-- An inquiry hears of the load that it waits for. -/
  | hear {task load : Nat} {key : String} {next : Except ReadFailure Document → Inquiry α}
      {outcome : Except ReadFailure Document} :
      c.tasks[task]? = some (.waiting load next) →
      c.session.documents.loads[load]? = some ⟨key, .done outcome⟩ →
      Step t c (.hear task) ⟨c.session, c.tasks.set task (.ready (next outcome))⟩

theorem Step.of_step? {ev : Event} (h : c.step? t ev = some d) : c.Step t ev d := by
  cases ev with
  | ask task =>
      simp only [step?] at h
      split at h
      · rename_i q hq
        cases q with
        | answer a => cases h
        | document path next => cases h; exact .document hq
        | file name next => cases h; exact .file hq
      · cases h
  | start load =>
      simp only [step?] at h
      split at h
      · rename_i hp
        cases h
        obtain ⟨key, hl⟩ := Cache.progress?_eq_some_iff.1 hp
        exact .start hl
      · cases h
  | finish load =>
      simp only [step?] at h
      split at h
      · rename_i key hl
        cases h
        exact .finish hl
      · cases h
  | hear task =>
      simp only [step?] at h
      split at h
      · rename_i load next htask
        obtain ⟨outcome, houtcome, rfl⟩ := Option.map_eq_some_iff.1 h
        obtain ⟨key, hl⟩ := Cache.outcome?_eq_some_iff.1 houtcome
        exact .hear htask hl
      · cases h

theorem Step.step? {ev : Event} (h : c.Step t ev d) : c.step? t ev = some d := by
  cases h with
  | document htask => simp only [Concurrent.step?, htask]; rfl
  | file htask => simp only [Concurrent.step?, htask]; rfl
  | start hl =>
      have hp := Cache.progress?_eq_some_iff.2 ⟨_, hl⟩
      simp only [Concurrent.step?, hp]
  | finish hl => simp only [Concurrent.step?, hl]
  | hear htask hl =>
      have houtcome := Cache.outcome?_eq_some_iff.2 ⟨_, hl⟩
      simp only [Concurrent.step?, htask, houtcome, Option.map_some]

theorem Reachable.trans {e : Concurrent α} (hcd : Reachable t c d) (hde : Reachable t d e) :
    Reachable t c e := by
  induction hde with
  | refl => exact hcd
  | step _ hstep ih => exact ih.step hstep

theorem Step.reachable {ev : Event} (h : c.Step t ev d) : Reachable t c d :=
  .step .refl h.step?

end Concurrent

/-! ### Answers stay the same -/

namespace Session

variable {s u : Session} {t : FileTree}

/-- What is remembered changes with the end of a load only, and only for its key. -/
theorem Sound.kept?_step {α : Type} {c d : Concurrent α} {ev : Concurrent.Event}
    (hs : c.session.Sound) (h : c.Step t ev d) :
    (∀ key, d.session.documents.kept? key = c.session.documents.kept? key) ∨
      ∃ ended, c.session.documents.kept? ended = none ∧
        ∀ key, d.session.documents.kept? key =
          if key = ended then (c.session.load t ended).toOption
          else c.session.documents.kept? key := by
  cases h with
  | document _ => exact .inl fun key => hs.consistent.kept?_join _ key
  | file _ => exact .inl fun key => by rw [documents_find]
  | start hl => exact .inl fun key => hs.consistent.kept?_begin hl key
  | finish hl =>
      exact .inr ⟨_, hs.consistent.kept?_eq_none hl rfl, hs.consistent.kept?_finish hl rfl _⟩
  | hear _ _ => exact .inl fun key => rfl

theorem dialect_step {α : Type} {c d : Concurrent α} {ev : Concurrent.Event} (h : c.Step t ev d) :
    d.session.dialect = c.session.dialect := by
  cases h with
  | file _ =>
      change (c.session.find t _).1.dialect = _
      unfold find
      split <;> rfl
  | _ => rfl

/-- What reading a file comes to depends on the dialect alone. -/
theorem load_congr (h : u.dialect = s.dialect) (key : String) : u.load t key = s.load t key := by
  rw [load, load, h]

/-- While the files stay as they are, an event changes no answer about a document. -/
theorem Sound.document_step {α : Type} {c d : Concurrent α} {ev : Concurrent.Event}
    (hs : c.session.Sound) (h : c.Step t ev d) (path : String) :
    (d.session.document t path).2 = (c.session.document t path).2 := by
  have hd : d.session.Sound := hs.step? h.step?
  rw [hd.document_snd, hs.document_snd, load_congr (dialect_step h)]
  rcases hs.kept?_step h with hkept | ⟨ended, hnone, hkept⟩
  · rw [hkept]
  · rw [hkept]
    split
    · rename_i hkey
      -- a load that has failed is not remembered, but would fail again
      rw [hkey, hnone]
      cases c.session.load t ended <;> rfl
    · rfl

/-- An event changes no answer about a name, as long as the scope need not be listed in vain. -/
theorem find_step {α : Type} {c d : Concurrent α} {ev : Concurrent.Event}
    (hlisted : c.session.listingFailure? t = none) (h : c.Step t ev d) :
    d.session.listingFailure? t = none ∧
      ∀ name, (d.session.find t name).2 = (c.session.find t name).2 := by
  cases h with
  | file _ => exact ⟨listingFailure?_find hlisted _, fun name => find_find hlisted name _⟩
  | _ => exact ⟨hlisted, fun name => find_snd_congr (by rfl) name⟩

theorem find_run {α : Type} (hlisted : s.listingFailure? t = none) (q : Inquiry α)
    (name : String) : ((s.run t q).1.find t name).2 = (s.find t name).2 := by
  induction q generalizing s with
  | answer a => rfl
  | document path next ih =>
      exact (ih (s.document t path).2 (s := (s.document t path).1) hlisted).trans
        (find_snd_congr (by rfl) name)
  | file other next ih =>
      exact (ih _ (listingFailure?_find hlisted other)).trans (find_find hlisted name other)

/-- What becomes of a session while the files stay as they are: it answers inquiries, one after
another or in turns. -/
inductive LeadsTo (t : FileTree) (s : Session) : Session → Prop where
  | refl : LeadsTo t s s
  | run {α : Type} {u : Session} (q : Inquiry α) : LeadsTo t s u → LeadsTo t s (u.run t q).1
  | turns {α : Type} {c d : Concurrent α} :
      LeadsTo t s c.session → Concurrent.Reachable t c d → LeadsTo t s d.session

namespace LeadsTo

/-- What every inquiry and every event keeps true stays true. -/
theorem invariant {P : Session → Prop} (h : s.LeadsTo t u) (hs : P s)
    (hrun : ∀ {α : Type} {v : Session} (q : Inquiry α), P v → P (v.run t q).1)
    (hstep : ∀ {α : Type} {c d : Concurrent α} {ev : Concurrent.Event},
      c.Step t ev d → P c.session → P d.session) : P u := by
  induction h with
  | refl => exact hs
  | run q _ ih => exact hrun q ih
  | turns _ hturns ih =>
      induction hturns with
      | refl => exact ih
      | step _ hevent hd => exact hstep (.of_step? hevent) hd

protected theorem sound (h : s.LeadsTo t u) (hs : s.Sound) : u.Sound :=
  h.invariant hs (fun q hv => hv.run t q) fun hevent hc => hc.step? hevent.step?

/-- **A document is what it was at first.** -/
theorem document_snd (h : s.LeadsTo t u) (hs : s.Sound) (path : String) :
    (u.document t path).2 = (s.document t path).2 := by
  have hinvariant : u.Sound ∧ (u.document t path).2 = (s.document t path).2 := by
    refine h.invariant (P := fun v => v.Sound ∧ (v.document t path).2 = (s.document t path).2)
      ⟨hs, rfl⟩ ?run ?step
    case run =>
      rintro α v q ⟨hv, hsame⟩
      exact ⟨hv.run t q, (hv.document_run t q path).trans hsame⟩
    case step =>
      rintro α c d ev hevent ⟨hc, hsame⟩
      exact ⟨hc.step? hevent.step?, (hc.document_step hevent path).trans hsame⟩
  exact hinvariant.2

protected theorem listed (h : s.LeadsTo t u) (hs : s.listingFailure? t = none) :
    u.listingFailure? t = none :=
  h.invariant (P := fun v => v.listingFailure? t = none) hs (fun q hv => listingFailure?_run hv q)
    fun hevent hc => (find_step hc hevent).1

/-- **A name leads where it led at first.** -/
theorem find_snd (h : s.LeadsTo t u) (hs : s.listingFailure? t = none) (name : String) :
    (u.find t name).2 = (s.find t name).2 := by
  have hinvariant : u.listingFailure? t = none ∧ (u.find t name).2 = (s.find t name).2 := by
    refine h.invariant
      (P := fun v => v.listingFailure? t = none ∧ (v.find t name).2 = (s.find t name).2)
      ⟨hs, rfl⟩ ?run ?step
    case run =>
      rintro α v q ⟨hv, hsame⟩
      exact ⟨listingFailure?_run hv q, (find_run hv q name).trans hsame⟩
    case step =>
      rintro α c d ev hevent ⟨hc, hsame⟩
      have ⟨hlisted, hfind⟩ := find_step hc hevent
      exact ⟨hlisted, (hfind name).trans hsame⟩
  exact hinvariant.2

/-- An inquiry into documents comes to what it would have come to at first. -/
theorem run_snd {α : Type} (h : s.LeadsTo t u) (hs : s.Sound) {q : Inquiry α}
    (hq : q.AsksDocuments) : (u.run t q).2 = (s.run t q).2 := by
  have files : String → Except SearchFailure (Option NameResolution) := fun _ => .ok none
  rw [(h.sound hs).run_eq_eval t hq files, hs.run_eq_eval t hq files]
  simp only [h.document_snd hs]

end LeadsTo

/-- An inquiry is answered as if each document and each name was always the same, as long as the
scope need not be listed in vain. -/
theorem Sound.run_eq_eval_of_listed {α : Type} (hs : s.Sound)
    (hlisted : s.listingFailure? t = none) (q : Inquiry α) :
    (s.run t q).2 =
      q.eval (fun path => (s.document t path).2) fun name => (s.find t name).2 := by
  induction q generalizing s with
  | answer a => rfl
  | document path next ih =>
      refine (ih _ (hs.document t path) hlisted).trans ?_
      simp only [hs.document_document, find_snd_congr (u := (s.document t path).1) (s := s) rfl]
      rfl
  | file name next ih =>
      refine (ih _ (hs.find t name) (listingFailure?_find hlisted name)).trans ?_
      have hdocument (path : String) :
          ((s.find t name).1.document t path).2 = (s.document t path).2 :=
        (LeadsTo.run (.file name .answer) .refl).document_snd hs path
      simp only [hdocument, find_find hlisted]
      rfl

end Session

/-! ### Waiting for loads -/

/-- A load is for a key, and has no other outcome than `r`. -/
def Cache.Brings (cache : Cache ReadFailure Document) (load : Nat) (key : String)
    (r : Except ReadFailure Document) : Prop :=
  ∃ p, cache.loads[load]? = some ⟨key, p⟩ ∧ ∀ outcome, p = .done outcome → outcome = r

namespace Session

variable {s : Session} {t : FileTree}

/-- Whoever asks for a document waits for a load that brings it. -/
theorem Sound.brings_join (hs : s.Sound) (t : FileTree) (path : String) :
    (s.documents.join (Path.absolute t.cwdPath path)).1.Brings
      (s.documents.join (Path.absolute t.cwdPath path)).2 (Path.absolute t.cwdPath path)
      (s.document t path).2 := by
  obtain ⟨p, hl, hp⟩ := hs.consistent.loads_join (Path.absolute t.cwdPath path)
  refine ⟨p, hl, fun outcome houtcome => ?_⟩
  subst houtcome
  cases outcome with
  | error e => cases hp
  | ok d =>
      have hkept : s.documents.kept? (Path.absolute t.cwdPath path) = some d := by
        rw [← hs.consistent.kept?_join (Path.absolute t.cwdPath path)]
        exact (hs.consistent.join _).kept?_eq_some_iff.2 ⟨_, hl⟩
      rw [hs.document_snd, hkept]
      rfl

/-- A load goes on to bring what it was to bring. -/
theorem Sound.brings_step {α : Type} {c d : Concurrent α} {ev : Concurrent.Event}
    (hs : c.session.Sound) (h : c.Step t ev d) {load : Nat} {path : String}
    (hb : c.session.documents.Brings load (Path.absolute t.cwdPath path)
      (c.session.document t path).2) :
    d.session.documents.Brings load (Path.absolute t.cwdPath path)
      (c.session.document t path).2 := by
  obtain ⟨p, hl, hp⟩ := hb
  have hdocument := hs.document_snd t path
  generalize Path.absolute t.cwdPath path = own at hl hdocument ⊢
  cases h with
  | document _ => exact ⟨p, Cache.loads_join_of_loads hl _, hp⟩
  | file _ => exact ⟨p, by rw [documents_find, hl], hp⟩
  | @start other key hother =>
      have hloads := Cache.loads_note hother .running load
      by_cases hsame : load = other
      · subst hsame
        rw [hl] at hother
        cases hother
        exact ⟨.running, by rw [Concurrent.withDocuments, Cache.begin, hloads, if_pos rfl],
          fun _ h => by cases h⟩
      · exact ⟨p, by rw [Concurrent.withDocuments, Cache.begin, hloads, if_neg hsame, hl], hp⟩
  | @finish other key hother =>
      have hloads := Cache.loads_finish hother (c.session.load t key) load
      by_cases hsame : load = other
      · subst hsame
        rw [hl] at hother
        cases hother
        refine ⟨_, by rw [Concurrent.withDocuments, hloads, if_pos rfl], fun outcome h => ?_⟩
        cases h
        -- nothing was remembered of the key while its load was going on
        rw [hdocument, hs.consistent.kept?_eq_none hl rfl]
        rfl
      · exact ⟨p, by rw [Concurrent.withDocuments, hloads, if_neg hsame, hl], hp⟩
  | hear _ _ => exact ⟨p, hl, hp⟩

end Session

/-! ### On the way to the answers -/

/-- What a task will come to, if documents and names are as they are in the session `s`. -/
def Task.HeadsFor {α : Type} (t : FileTree) (s : Session) (cache : Cache ReadFailure Document) :
    Task α → α → Prop
  | .ready q, a =>
      q.eval (fun path => (s.document t path).2) (fun name => (s.find t name).2) = a
  | .waiting load next, a => ∃ path,
      cache.Brings load (Path.absolute t.cwdPath path) (s.document t path).2 ∧
        (next (s.document t path).2).eval (fun path => (s.document t path).2)
          (fun name => (s.find t name).2) = a

/-- A task that an event does not concern heads for what it has headed for; its load may be further
on. -/
theorem Task.HeadsFor.step {α : Type} {t : FileTree} {s : Session} {c d : Concurrent α}
    {ev : Concurrent.Event} (hc : c.session.Sound)
    (hdocument : ∀ path, (c.session.document t path).2 = (s.document t path).2)
    (hstep : c.Step t ev d) {task : Task α} {a : α}
    (h : task.HeadsFor t s c.session.documents a) : task.HeadsFor t s d.session.documents a := by
  cases task with
  | ready q => exact h
  | waiting load next =>
      obtain ⟨path, hbrings, heval⟩ := h
      rw [← hdocument] at hbrings
      have hfurther := hc.brings_step hstep hbrings
      rw [hdocument] at hfurther
      exact ⟨path, hfurther, heval⟩

theorem Task.answer?_eq_some_iff {α : Type} {task : Task α} {a : α} :
    task.answer? = some a ↔ task = .ready (.answer a) := by
  constructor
  · intro h
    cases task with
    | ready q =>
        cases q with
        | answer b => cases h; rfl
        | document path next => cases h
        | file name next => cases h
    | waiting load next => cases h
  · rintro rfl
    rfl

namespace Concurrent

variable {α : Type} {s : Session} {t : FileTree} {c d : Concurrent α} {qs : List (Inquiry α)}

theorem answers?_eq_some_iff {as : List α} :
    c.answers? = some as ↔ c.tasks = as.map fun a => .ready (.answer a) := by
  obtain ⟨s, tasks⟩ := c
  change tasks.mapM Task.answer? = some as ↔ tasks = _
  induction tasks generalizing as with
  | nil => cases as <;> simp
  | cons task tasks ih =>
      rw [List.mapM_cons]
      constructor
      · intro h
        obtain ⟨a, ha, h⟩ := Option.bind_eq_some_iff.1 h
        obtain ⟨rest, hrest, h⟩ := Option.bind_eq_some_iff.1 h
        cases h
        rw [Task.answer?_eq_some_iff.1 ha, ih.1 hrest, List.map_cons]
      · intro h
        cases as with
        | nil => cases h
        | cons a rest =>
            cases h
            exact Option.bind_eq_some_iff.2
              ⟨a, rfl, Option.bind_eq_some_iff.2 ⟨rest, ih.2 rfl, rfl⟩⟩

theorem getElem?_set_of_getElem? {tasks : List (Task α)} {k : Nat} {task : Task α}
    (h : tasks[k]? = some task) (other : Task α) (j : Nat) :
    (tasks.set k other)[j]? = if j = k then some other else tasks[j]? := by
  have hlt : k < tasks.length := (List.getElem?_eq_some_iff.1 h).1
  by_cases hj : j = k
  · subst hj
    simp [hlt]
  · rw [List.getElem?_set_ne (Ne.symm hj), if_neg hj]

theorem eq_or_getElem?_of_set {tasks : List (Task α)} {k j : Nat} {task other : Task α}
    (h : (tasks.set k other)[j]? = some task) : j = k ∧ task = other ∨ tasks[j]? = some task := by
  rw [List.getElem?_set] at h
  split at h
  · rename_i hk
    split at h
    · cases h
      exact .inl ⟨hk.symm, rfl⟩
    · cases h
  · exact .inr h

/-- **Each inquiry is on its way to its answer**, however far it has come. -/
theorem headsFor_of_reachable (hs : s.Sound) (hlisted : s.listingFailure? t = none)
    (h : Reachable t (start s qs) c) {k : Nat} {task : Task α} (htask : c.tasks[k]? = some task) :
    ∃ q, qs[k]? = some q ∧ task.HeadsFor t s c.session.documents
      (q.eval (fun path => (s.document t path).2) fun name => (s.find t name).2) := by
  induction h generalizing k task with
  | refl =>
      obtain ⟨q, hq, rfl⟩ : ∃ q, qs[k]? = some q ∧ .ready q = task := by
        simpa [start] using htask
      exact ⟨q, hq, rfl⟩
  | @step c d ev hreach hstep ih =>
      have hleads : s.LeadsTo t c.session := .turns (c := start s qs) .refl hreach
      have hsound := hleads.sound hs
      have hdocument := hleads.document_snd hs
      have hstep := Step.of_step? hstep
      have hother {j : Nat} {other : Task α} (hj : c.tasks[j]? = some other) :
          ∃ q, qs[j]? = some q ∧ other.HeadsFor t s d.session.documents
            (q.eval (fun path => (s.document t path).2) fun name => (s.find t name).2) := by
        obtain ⟨q, hq, hheads⟩ := ih hj
        exact ⟨q, hq, hheads.step hsound hdocument hstep⟩
      cases hstep with
      | @document asking path next hasking =>
          rcases eq_or_getElem?_of_set htask with ⟨rfl, rfl⟩ | htask
          · obtain ⟨q, hq, hheads⟩ := ih hasking
            have hbrings := hsound.brings_join t path
            rw [hdocument] at hbrings
            exact ⟨q, hq, path, hbrings, hheads⟩
          · exact hother htask
      | @file asking name next hasking =>
          rcases eq_or_getElem?_of_set htask with ⟨rfl, rfl⟩ | htask
          · obtain ⟨q, hq, hheads⟩ := ih hasking
            refine ⟨q, hq, ?_⟩
            rw [hleads.find_snd hlisted]
            exact hheads
          · exact hother htask
      | start _ => exact hother htask
      | finish _ => exact hother htask
      | @hear hearing load key next outcome hhearing hl =>
          rcases eq_or_getElem?_of_set htask with ⟨rfl, rfl⟩ | htask
          · obtain ⟨q, hq, path, ⟨p, hp, hdone⟩, heval⟩ := ih hhearing
            rw [hl] at hp
            cases hp
            rw [← hdone outcome rfl] at heval
            exact ⟨q, hq, heval⟩
          · exact hother htask

/-- **Whichever way inquiries take turns, they come to what each of them would come to by
itself.** -/
theorem answers_eq (hs : s.Sound) (hlisted : s.listingFailure? t = none)
    (h : Reachable t (start s qs) c) {as : List α} (has : c.answers? = some as) :
    as = qs.map fun q => (s.run t q).2 := by
  have htasks := answers?_eq_some_iff.1 has
  have hlength : as.length = qs.length := by
    have := length_tasks_of_reachable h
    simpa [htasks, start] using this
  refine List.ext_getElem? fun k => ?_
  cases ha : as[k]? with
  | none =>
      have hk : qs.length ≤ k := hlength ▸ List.getElem?_eq_none_iff.1 ha
      rw [List.getElem?_eq_none (by simpa using hk)]
  | some a =>
      have htask : c.tasks[k]? = some (.ready (.answer a)) := by simp [htasks, ha]
      obtain ⟨q, hq, hheads⟩ := headsFor_of_reachable hs hlisted h htask
      rw [List.getElem?_map, hq, Option.map_some, hs.run_eq_eval_of_listed hlisted, ← hheads]
      rfl

/-! ### No inquiry is held up -/

theorem exists_hear_of_done {k load : Nat} {key : String} {r : Except ReadFailure Document}
    {next : Except ReadFailure Document → Inquiry α}
    (htask : c.tasks[k]? = some (.waiting load next))
    (hl : c.session.documents.loads[load]? = some ⟨key, .done r⟩) :
    ∃ d, Reachable t c d ∧ d.tasks = c.tasks.set k (.ready (next r)) :=
  ⟨_, (Step.hear htask hl).reachable, rfl⟩

theorem exists_hear_of_running {k load : Nat} {key : String}
    {next : Except ReadFailure Document → Inquiry α}
    (htask : c.tasks[k]? = some (.waiting load next))
    (hl : c.session.documents.loads[load]? = some ⟨key, .running⟩) :
    ∃ d r, Reachable t c d ∧ d.tasks = c.tasks.set k (.ready (next r)) := by
  have hdone := Cache.loads_finish hl (c.session.load t key) load
  rw [if_pos rfl] at hdone
  obtain ⟨d, hd, htasks⟩ := exists_hear_of_done (t := t)
    (c := c.withDocuments (c.session.documents.finish load (c.session.load t key))) htask hdone
  exact ⟨d, _, (Step.finish hl).reachable.trans hd, htasks⟩

/-- A task that waits for a load will hear of it. -/
theorem exists_hear {k load : Nat} {key : String} {p : Progress ReadFailure Document}
    {next : Except ReadFailure Document → Inquiry α}
    (htask : c.tasks[k]? = some (.waiting load next))
    (hl : c.session.documents.loads[load]? = some ⟨key, p⟩) :
    ∃ d r, Reachable t c d ∧ d.tasks = c.tasks.set k (.ready (next r)) := by
  cases p with
  | waiting =>
      have hrunning := Cache.loads_note hl .running load
      rw [if_pos rfl] at hrunning
      obtain ⟨d, r, hd, htasks⟩ := exists_hear_of_running (t := t)
        (c := c.withDocuments (c.session.documents.begin load)) htask hrunning
      exact ⟨d, r, (Step.start hl).reachable.trans hd, htasks⟩
  | running => exact exists_hear_of_running htask hl
  | done r =>
      obtain ⟨d, hd, htasks⟩ := exists_hear_of_done htask hl
      exact ⟨d, r, hd, htasks⟩

/-- An inquiry that can go on can come to an end, while the others stay where they are. -/
theorem exists_answer (q : Inquiry α) (hs : c.session.Sound) {k : Nat}
    (htask : c.tasks[k]? = some (.ready q)) :
    ∃ d a, Reachable t c d ∧ d.tasks = c.tasks.set k (.ready (.answer a)) := by
  induction q generalizing c with
  | answer a =>
      refine ⟨c, a, .refl, List.ext_getElem? fun j => ?_⟩
      rw [getElem?_set_of_getElem? htask]
      split
      · rename_i hj
        rw [hj, htask]
      · rfl
  | document path next ih =>
      have hasked := Step.document (t := t) htask
      obtain ⟨p, hl, -⟩ := hs.consistent.loads_join (Path.absolute t.cwdPath path)
      have hwaiting := getElem?_set_of_getElem? htask
        (.waiting (c.session.documents.join (Path.absolute t.cwdPath path)).2 next) k
      rw [if_pos rfl] at hwaiting
      obtain ⟨d, r, hd, htasks⟩ := exists_hear (t := t) (c := ⟨{ c.session with
        documents := (c.session.documents.join (Path.absolute t.cwdPath path)).1 }, _⟩) hwaiting hl
      have hreach := hasked.reachable.trans hd
      have hnext : d.tasks[k]? = some (.ready (next r)) := by
        rw [htasks, List.set_set, getElem?_set_of_getElem? htask, if_pos rfl]
      obtain ⟨e, a, he, hanswered⟩ := ih r ((Session.LeadsTo.turns .refl hreach).sound hs) hnext
      exact ⟨e, a, hreach.trans he, by rw [hanswered, htasks, List.set_set, List.set_set]⟩
  | file name next ih =>
      have hasked := Step.file (t := t) htask
      obtain ⟨e, a, he, hanswered⟩ := ih _ (hs.step? hasked.step?)
        (by rw [getElem?_set_of_getElem? htask, if_pos rfl])
      exact ⟨e, a, hasked.reachable.trans he, by rw [hanswered, List.set_set]⟩

/-- Any inquiry can come to an end, while the others stay where they are. -/
theorem exists_answer_of_reachable (hs : s.Sound) (hlisted : s.listingFailure? t = none)
    (h : Reachable t (start s qs) c) {k : Nat} {task : Task α} (htask : c.tasks[k]? = some task) :
    ∃ d a, Reachable t c d ∧ d.tasks = c.tasks.set k (.ready (.answer a)) := by
  have hsound := (Session.LeadsTo.turns (c := start s qs) .refl h).sound hs
  cases task with
  | ready q => exact exists_answer q hsound htask
  | waiting load next =>
      obtain ⟨-, -, path, ⟨p, hl, -⟩, -⟩ := headsFor_of_reachable hs hlisted h htask
      obtain ⟨d, r, hd, htasks⟩ := exists_hear (t := t) htask hl
      have hnext : d.tasks[k]? = some (.ready (next r)) := by
        rw [htasks, getElem?_set_of_getElem? htask, if_pos rfl]
      obtain ⟨e, a, he, hends⟩ := exists_answer (next r)
        ((Session.LeadsTo.turns .refl hd).sound hsound) hnext
      exact ⟨e, a, hd.trans he, by rw [hends, htasks, List.set_set]⟩

/-- The first inquiries can come to an end, one after another. -/
theorem exists_answers_below (hs : s.Sound) (hlisted : s.listingFailure? t = none)
    (h : Reachable t (start s qs) c) {n : Nat} (hn : n ≤ c.tasks.length) :
    ∃ d, Reachable t c d ∧ ∀ k < n, ∃ a, d.tasks[k]? = some (.ready (.answer a)) := by
  induction n with
  | zero => exact ⟨c, .refl, fun k hk => by omega⟩
  | succ n ih =>
      obtain ⟨d, hd, hanswered⟩ := ih (by omega)
      have hlength := length_tasks_of_reachable hd
      obtain ⟨task, htask⟩ : ∃ task, d.tasks[n]? = some task :=
        ⟨_, List.getElem?_eq_getElem (by omega)⟩
      obtain ⟨e, a, he, htasks⟩ := exists_answer_of_reachable hs hlisted (h.trans hd) htask
      refine ⟨e, hd.trans he, fun k hk => ?_⟩
      rw [htasks, getElem?_set_of_getElem? htask]
      split
      · exact ⟨a, rfl⟩
      · exact hanswered k (by omega)

/-- **All inquiries can come to an end**, whatever has happened so far. -/
theorem exists_answers (hs : s.Sound) (hlisted : s.listingFailure? t = none)
    (h : Reachable t (start s qs) c) : ∃ d as, Reachable t c d ∧ d.answers? = some as := by
  obtain ⟨d, hd, hanswered⟩ := exists_answers_below hs hlisted h (Nat.le_refl _)
  have hlength := length_tasks_of_reachable hd
  choose a ha using hanswered
  refine ⟨d, List.ofFn fun k : Fin c.tasks.length => a k k.isLt, hd, ?_⟩
  rw [answers?_eq_some_iff]
  refine List.ext_getElem? fun k => ?_
  by_cases hk : k < c.tasks.length
  · rw [ha k hk]
    simp [hk]
  · rw [List.getElem?_eq_none (by omega), List.getElem?_eq_none (by simpa using hk)]

end Concurrent

end Citations

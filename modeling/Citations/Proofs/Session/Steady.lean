/-
**Sessions over files that stay as they are.**

While the files stay as they are, a session has nothing to remember: each document is what reading
it anew would give, and the list of the scope is the one that listing it anew would give.  So a
session answers as any other session of the same dialect would.

Main definitions:

* `Citations.Session.HasScopeRoot` — a session whose scope, if it has one, has a real path;
* `Citations.Session.ReachableIn` — the sessions that come about while the files stay as they are;
* `Citations.Session.Steady` — **the invariant**.

Main results:

* `Citations.Session.ReachableIn.steady` — the invariant holds in every such session;
* `Citations.Session.Steady.document_snd`, `Citations.Session.Steady.find_snd` — **the answers to
  single questions are read off the files**.
-/

import Citations.Proofs.Session.Listing

set_option relaxedAutoImplicit false
set_option autoImplicit false

namespace Citations.Session

variable {s : Session} {t : FileTree}

/-- The scope of a session, if it has one, has a real path. -/
def HasScopeRoot (t : FileTree) (s : Session) : Prop :=
  ∀ f, s.finder = some f → ∃ root, FileIndex.scopeRoot t f.scope = .ok root

/-- The sessions that come about while the files stay as they are: by starting one, and by answering
inquiries in it, one after another or in turns.  No session starts with a scope that has no real
path. -/
inductive ReachableIn (t : FileTree) : Session → Prop where
  | start (dialect : Markdown.Dialect) (policy : SuggestionPolicy) (scope : Option String) :
      (start t dialect policy scope).HasScopeRoot t →
      ReachableIn t (start t dialect policy scope)
  | run {α : Type} {s : Session} (q : Inquiry α) : ReachableIn t s → ReachableIn t (s.run t q).1
  | turns {α : Type} {c d : Concurrent α} :
      ReachableIn t c.session → Concurrent.Reachable t c d → ReachableIn t d.session

/-- A session that remembers nothing but what it would come to know anew. -/
structure Steady (t : FileTree) (s : Session) : Prop where
  sound : s.Sound
  kept : ∀ key d, s.documents.kept? key = some d → s.load t key = .ok d
  rooted : s.HasScopeRoot t
  listed : ∀ f, s.finder = some f → f.index = FileIndex.ofScope t f.scope

theorem hasScopeRoot_start_none (dialect : Markdown.Dialect) (policy : SuggestionPolicy) :
    (start t dialect policy none).HasScopeRoot t := fun f h => by cases h

theorem hasScopeRoot_start_some {scope root : String}
    (h : FileIndex.scopeRoot t scope = .ok root) (dialect : Markdown.Dialect)
    (policy : SuggestionPolicy) : (start t dialect policy (some scope)).HasScopeRoot t := by
  intro f hf
  obtain ⟨other, hother, rfl⟩ := Option.map_eq_some_iff.1 hf
  obtain rfl := Option.some.inj (Option.filter_eq_some_iff.1 hother).1
  exact ⟨root, h⟩

/-- A scope that can be listed has a real path. -/
theorem hasScopeRoot_start_of_listed {scope : Option String}
    (h : scope.bind (FileIndex.failure? t) = none) (dialect : Markdown.Dialect)
    (policy : SuggestionPolicy) : (start t dialect policy scope).HasScopeRoot t := by
  cases scope with
  | none => exact hasScopeRoot_start_none dialect policy
  | some scope =>
      rw [Option.bind_some, FileIndex.failure?] at h
      split at h
      · cases h
      · rename_i root hroot
        exact hasScopeRoot_start_some (by rw [FileIndex.scopeRoot, hroot]; rfl) dialect policy

theorem steady_start {dialect : Markdown.Dialect} {policy : SuggestionPolicy}
    {scope : Option String} (h : (start t dialect policy scope).HasScopeRoot t) :
    Steady t (start t dialect policy scope) := by
  refine ⟨sound_start t dialect policy scope, fun key d h => (by cases h), h, fun f h => ?_⟩
  obtain ⟨scope, -, hf⟩ := Option.map_eq_some_iff.1 h
  rw [← hf]

/-! ### Single questions -/

/-- A document is what reading it gives. -/
theorem Steady.document_snd (hs : s.Steady t) (path : String) :
    (s.document t path).2 = s.load t (Path.absolute t.cwdPath path) := by
  rw [hs.sound.document_snd]
  cases hk : s.documents.kept? (Path.absolute t.cwdPath path) with
  | none => rw [Option.map_none, Option.getD_none]
  | some d => rw [Option.map_some, Option.getD_some, hs.kept _ d hk]

/-- What a name leads to is looked up in the list of the scope. -/
theorem Steady.find_snd (hs : s.Steady t) {f : Finder} (hf : s.finder = some f) (name : String) :
    (s.find t name).2 = .ok (some ((FileIndex.ofScope t f.scope).lookUp name)) := by
  obtain ⟨root, hroot⟩ := hs.rooted f hf
  rw [find, hf]
  simp only [FileIndex.resolve, hs.listed f hf, FileIndex.forScope_ofScope hroot]
  rfl

/-- While the files stay as they are, the scope need not be listed in vain. -/
theorem Steady.listed_eq_none (hs : s.Steady t) : s.listingFailure? t = none := by
  cases hf : s.finder with
  | none => rw [listingFailure?, hf, Option.bind_none]
  | some f =>
      obtain ⟨root, hroot⟩ := hs.rooted f hf
      rw [listingFailure?, hf, Option.bind_some, hs.listed f hf, FileIndex.forScope_ofScope hroot]

protected theorem Steady.document (hs : s.Steady t) (path : String) :
    (s.document t path).1.Steady t := by
  refine ⟨hs.sound.document t path, fun key d hd => ?_, hs.rooted, hs.listed⟩
  have hload : (s.document t path).1.load t key = s.load t key := rfl
  rw [hs.sound.kept?_document] at hd
  rw [hload]
  split at hd
  · rename_i hkey
    rw [hs.document_snd, ← hkey] at hd
    cases hl : s.load t key with
    | error e =>
        rw [hl] at hd
        cases hd
    | ok d' =>
        rw [hl] at hd
        cases hd
        rfl
  · exact hs.kept key d hd

/-- Asking for a name changes nothing, since the scope is not listed anew. -/
theorem Steady.find_fst (hs : s.Steady t) (name : String) : (s.find t name).1 = s := by
  cases hf : s.finder with
  | none => rw [find, hf]
  | some f =>
      obtain ⟨root, hroot⟩ := hs.rooted f hf
      have hlisted : f.index.forScope t (some f.scope) = (f.index, none) := by
        rw [hs.listed f hf]
        exact FileIndex.forScope_ofScope hroot
      rw [find, hf]
      simp only [FileIndex.resolve, hlisted]
      rw [← hf]

theorem Steady.run {α : Type} (hs : s.Steady t) (q : Inquiry α) : (s.run t q).1.Steady t := by
  induction q generalizing s with
  | answer a => exact hs
  | document path next ih => exact ih _ (hs.document path)
  | file name next ih => exact ih _ (by rwa [hs.find_fst])

/-- What is known of the scope stays the same, since it is not listed anew. -/
theorem Steady.finder_run {α : Type} (hs : s.Steady t) (q : Inquiry α) :
    (s.run t q).1.finder = s.finder := by
  induction q generalizing s with
  | answer a => rfl
  | document path next ih => exact ih _ (hs.document path)
  | file name next ih =>
      refine (ih _ (by rwa [hs.find_fst])).trans ?_
      rw [hs.find_fst]

/-- A session keeps its dialect. -/
theorem dialect_run {α : Type} (q : Inquiry α) : (s.run t q).1.dialect = s.dialect := by
  induction q generalizing s with
  | answer a => rfl
  | document path next ih => exact ih _
  | file name next ih =>
      refine (ih _).trans ?_
      unfold find
      split <;> rfl

/-! ### Inquiries that take turns -/

theorem Steady.step? {α : Type} {c d : Concurrent α} (hs : c.session.Steady t)
    {ev : Concurrent.Event} (h : c.step? t ev = some d) : d.session.Steady t := by
  have hsound := hs.sound.step? h
  cases ev with
  | ask task =>
      simp only [Concurrent.step?] at h
      split at h
      · rename_i q _
        cases q with
        | answer a => cases h
        | document path next =>
            cases h
            refine ⟨hsound, fun key d hd => hs.kept key d ?_, hs.rooted, hs.listed⟩
            rwa [hs.sound.consistent.kept?_join] at hd
        | file name next =>
            cases h
            change (c.session.find t name).1.Steady t
            rwa [hs.find_fst]
      · cases h
  | start load =>
      simp only [Concurrent.step?] at h
      split at h
      · rename_i hp
        cases h
        obtain ⟨k, hl⟩ := Cache.progress?_eq_some_iff.1 hp
        refine ⟨hsound, fun key d hd => hs.kept key d ?_, hs.rooted, hs.listed⟩
        rwa [Concurrent.withDocuments, hs.sound.consistent.kept?_begin hl] at hd
      · cases h
  | finish load =>
      simp only [Concurrent.step?] at h
      split at h
      · rename_i k hl
        cases h
        refine ⟨hsound, fun key d hd => ?_, hs.rooted, hs.listed⟩
        rw [Concurrent.withDocuments, hs.sound.consistent.kept?_finish hl rfl] at hd
        split at hd
        · rename_i hkey
          cases hr : c.session.load t k with
          | error e =>
              rw [hr] at hd
              cases hd
          | ok d' =>
              rw [hr] at hd
              cases hd
              rw [hkey]
              exact hr
        · exact hs.kept key d hd
      · cases h
  | hear task =>
      simp only [Concurrent.step?] at h
      split at h
      · obtain ⟨outcome, _, rfl⟩ := Option.map_eq_some_iff.1 h
        exact hs
      · cases h

/-- **The invariant holds in every session that comes about while the files stay as they are.** -/
theorem ReachableIn.steady (hs : s.ReachableIn t) : s.Steady t := by
  induction hs with
  | start dialect policy scope h => exact steady_start h
  | run q _ ih => exact ih.run q
  | turns _ hturns ih =>
      induction hturns with
      | refl => exact ih
      | step _ hstep hd => exact hd.step? hstep

end Citations.Session

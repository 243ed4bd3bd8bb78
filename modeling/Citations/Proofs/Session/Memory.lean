/-
**What a session remembers.**

Whatever a session has been through, what it remembers is in order: each key stands for one load at
most, what was loaded is a document as it was parsed, and the files of its scope have paths.  A
document that was heard of once is given again, whatever has become of its file; and as long as the
files stay as they are, an inquiry into documents comes to the same at any time, since no answer
depends on the questions before it.

Main definitions:

* `Citations.Session.Sound` — **the invariant**;
* `Citations.Session.Reachable` — the sessions that come about;
* `Citations.Inquiry.AsksDocuments` — an inquiry that asks for documents only.

Main results:

* `Citations.Session.Reachable.sound` — the invariant holds in every session that comes about;
* `Citations.Session.Sound.document_of_heard` — what was heard once is given again;
* `Citations.Session.Sound.run_eq_eval` — **inquiries into documents are answered as if each
  document was always the same**.
-/

import Citations.Proofs.Cache.Consistency
import Citations.Proofs.FileIndex.Lookup
import Citations.Session.Concurrent

set_option relaxedAutoImplicit false
set_option autoImplicit false

namespace Citations

/-! ### The files of a scope -/

namespace FileIndex

/-- All files of an index have paths. -/
def HasPaths (i : FileIndex) : Prop := ∀ file ∈ i.files, file.path ≠ ""

theorem hasPaths_build (t : FileTree) (i : FileIndex) (scope : String) :
    (build t i scope).HasPaths := by
  unfold build
  intro file h
  split at h
  · cases h
  · obtain ⟨names, -, rfl⟩ := List.mem_map.1 h
    exact Path.join_ne_empty (Path.normalize_ne_empty _) _

theorem HasPaths.forScope {i : FileIndex} (hi : i.HasPaths) (t : FileTree)
    (scope : Option String) : (i.forScope t scope).1.HasPaths := by
  cases scope with
  | none => exact hi
  | some scope =>
      rw [FileIndex.forScope]
      split
      · exact hi
      · split
        · exact hi
        · exact hasPaths_build t i scope

end FileIndex

namespace Session

variable {s : Session} {t : FileTree} {path : String}

/-! ### The invariant -/

/-- The cache of documents is consistent, its values are documents as they were parsed, and the
files of the scope have paths. -/
structure Sound (s : Session) : Prop where
  consistent : s.documents.Consistent
  parsed : ∀ key d, s.documents.kept? key = some d → d.IsParsed
  paths : ∀ f, s.finder = some f → f.index.HasPaths

theorem sound_start (t : FileTree) (dialect : Markdown.Dialect) (policy : SuggestionPolicy)
    (scope : Option String) : (start t dialect policy scope).Sound := by
  refine ⟨Cache.consistent_empty, fun key d h => (by cases h), fun f h => ?_⟩
  obtain ⟨scope, -, rfl⟩ := Option.map_eq_some_iff.1 h
  exact FileIndex.hasPaths_build t .empty scope

theorem isParsed_of_load {key : String} {d : Document} (h : s.load t key = .ok d) :
    d.IsParsed := by
  unfold load at h
  cases hr : t.readText key with
  | error e => rw [hr] at h; cases h
  | ok content =>
      rw [hr] at h
      cases h
      exact ⟨s.dialect, t.cwdPath, key, content, rfl⟩

/-- The answer about a document is what is remembered of it, or else what reading it comes to. -/
theorem Sound.document_snd (hs : s.Sound) (t : FileTree) (path : String) :
    (s.document t path).2 =
      ((s.documents.kept? (Path.absolute t.cwdPath path)).map .ok).getD
        (s.load t (Path.absolute t.cwdPath path)) :=
  hs.consistent.resolve_snd (s.load t) (Path.absolute t.cwdPath path)

/-- What is remembered after a document was asked for. -/
theorem Sound.kept?_document (hs : s.Sound) (t : FileTree) (path key : String) :
    (s.document t path).1.documents.kept? key =
      if key = Path.absolute t.cwdPath path then (s.document t path).2.toOption
      else s.documents.kept? key :=
  hs.consistent.kept?_resolve (s.load t) (Path.absolute t.cwdPath path) key

/-- The documents that a session gives were parsed. -/
theorem Sound.isParsed_of_document (hs : s.Sound) {d : Document}
    (h : (s.document t path).2 = .ok d) : d.IsParsed := by
  rw [hs.document_snd] at h
  cases hk : s.documents.kept? (Path.absolute t.cwdPath path) with
  | some d' =>
      simp only [hk, Option.map_some, Option.getD_some, Except.ok.injEq] at h
      subst h
      exact hs.parsed _ _ hk
  | none =>
      simp only [hk, Option.map_none, Option.getD_none] at h
      exact isParsed_of_load h

protected theorem Sound.document (hs : s.Sound) (t : FileTree) (path : String) :
    (s.document t path).1.Sound := by
  refine ⟨hs.consistent.resolve _ _, fun key d hd => ?_, hs.paths⟩
  rw [hs.kept?_document] at hd
  split at hd
  · cases h : (s.document t path).2 with
    | error e => rw [h] at hd; cases hd
    | ok d' =>
        rw [h] at hd
        cases hd
        exact hs.isParsed_of_document h
  · exact hs.parsed key d hd

@[simp] theorem documents_find (s : Session) (t : FileTree) (name : String) :
    (s.find t name).1.documents = s.documents := by
  unfold find
  split <;> rfl

protected theorem Sound.find (hs : s.Sound) (t : FileTree) (name : String) :
    (s.find t name).1.Sound := by
  have hdocuments := documents_find s t name
  refine ⟨hdocuments ▸ hs.consistent, hdocuments ▸ hs.parsed, fun f hf => ?_⟩
  unfold find at hf
  split at hf
  · exact hs.paths f hf
  · rename_i g hg
    cases hf
    exact (hs.paths g hg).forScope t (some g.scope)

/-- The files that a session finds have paths. -/
theorem Sound.path_ne_of_find (hs : s.Sound) {name : String} {r : NameResolution}
    (h : (s.find t name).2 = .ok (some r)) (hr : r.path? = some path) : path ≠ "" := by
  unfold find at h
  split at h
  · cases h
  · rename_i f hf
    dsimp only [FileIndex.resolve] at h
    split at h
    · cases h
    · cases h
      obtain ⟨file, hfile, rfl⟩ := FileIndex.path?_lookUp hr
      exact (hs.paths f hf).forScope t (some f.scope) file hfile

protected theorem Sound.run {α : Type} (hs : s.Sound) (t : FileTree) (q : Inquiry α) :
    (s.run t q).1.Sound := by
  induction q generalizing s with
  | answer a => exact hs
  | document path next ih => exact ih _ (hs.document t path)
  | file name next ih => exact ih _ (hs.find t name)

/-! ### Inquiries that take turns -/

theorem Sound.step? {α : Type} {c d : Concurrent α} (hs : c.session.Sound)
    {ev : Concurrent.Event} (h : c.step? t ev = some d) : d.session.Sound := by
  cases ev with
  | ask task =>
      simp only [Concurrent.step?] at h
      split at h
      · rename_i q _
        cases q with
        | answer a => cases h
        | document path next =>
            cases h
            refine ⟨hs.consistent.join _, fun key d hd => hs.parsed key d ?_, hs.paths⟩
            rwa [hs.consistent.kept?_join] at hd
        | file name next =>
            cases h
            exact hs.find t name
      · cases h
  | start load =>
      simp only [Concurrent.step?] at h
      split at h
      · rename_i hp
        cases h
        obtain ⟨k, hl⟩ := Cache.progress?_eq_some_iff.1 hp
        refine ⟨hs.consistent.note hl rfl rfl, fun key d hd => hs.parsed key d ?_, hs.paths⟩
        rwa [Concurrent.withDocuments, hs.consistent.kept?_begin hl] at hd
      · cases h
  | finish load =>
      simp only [Concurrent.step?] at h
      split at h
      · rename_i k hl
        cases h
        refine ⟨hs.consistent.finish hl rfl _, fun key d hd => ?_, hs.paths⟩
        rw [Concurrent.withDocuments, hs.consistent.kept?_finish hl rfl] at hd
        split at hd
        · cases hr : c.session.load t k with
          | error e => rw [hr] at hd; cases hd
          | ok d' =>
              rw [hr] at hd
              cases hd
              exact isParsed_of_load hr
        · exact hs.parsed key d hd
      · cases h
  | hear task =>
      simp only [Concurrent.step?] at h
      split at h
      · obtain ⟨outcome, _, rfl⟩ := Option.map_eq_some_iff.1 h
        exact hs
      · cases h

/-- The sessions that come about: by starting one, and by answering inquiries in it, one after
another or in turns.  The files may change in between. -/
inductive Reachable : Session → Prop where
  | start (t : FileTree) (dialect : Markdown.Dialect) (policy : SuggestionPolicy)
      (scope : Option String) : Reachable (start t dialect policy scope)
  | run {α : Type} {s : Session} (t : FileTree) (q : Inquiry α) :
      Reachable s → Reachable (s.run t q).1
  | turns {α : Type} {c d : Concurrent α} (t : FileTree) :
      Reachable c.session → Concurrent.Reachable t c d → Reachable d.session

/-- **The invariant holds in every session that comes about.** -/
theorem Reachable.sound (hs : s.Reachable) : s.Sound := by
  induction hs with
  | start t dialect policy scope => exact sound_start t dialect policy scope
  | run t q _ ih => exact ih.run t q
  | turns t _ hturns ih =>
      induction hturns with
      | refl => exact ih
      | step _ hstep hd => exact hd.step? hstep

/-! ### The same question again -/

/-- What is remembered stays remembered, whatever is asked. -/
theorem Sound.kept?_run {α : Type} (hs : s.Sound) (t : FileTree) (q : Inquiry α) {key : String}
    {d : Document} (h : s.documents.kept? key = some d) :
    (s.run t q).1.documents.kept? key = some d := by
  induction q generalizing s with
  | answer a => exact h
  | document path next ih =>
      refine ih _ (hs.document t path) ?_
      rw [hs.kept?_document]
      split
      · rename_i hkey
        rw [hs.document_snd, ← hkey, h]
        rfl
      · exact h
  | file name next ih => exact ih _ (hs.find t name) (by rw [documents_find, h])

/-- What was heard once is given again, whatever was asked in between and whatever has become of the
file. -/
theorem Sound.document_of_heard {α : Type} (hs : s.Sound) {d : Document}
    (h : (s.document t path).2 = .ok d) (t' : FileTree) (q : Inquiry α) {t'' : FileTree}
    (hcwd : t''.cwd = t.cwd) :
    ((((s.document t path).1.run t' q).1).document t'' path).2 = .ok d := by
  have hsound := hs.document t path
  have hkey : Path.absolute t''.cwdPath path = Path.absolute t.cwdPath path := by
    rw [FileTree.cwdPath, FileTree.cwdPath, hcwd]
  have hkept : (s.document t path).1.documents.kept? (Path.absolute t.cwdPath path) = some d := by
    rw [hs.kept?_document, if_pos rfl, h]
    rfl
  rw [(hsound.run t' q).document_snd, hkey, hsound.kept?_run t' q hkept]
  rfl

/-- While the files stay as they are, asking for one document changes no answer. -/
theorem Sound.document_document (hs : s.Sound) (t : FileTree) (path other : String) :
    ((s.document t path).1.document t other).2 = (s.document t other).2 := by
  have hload : (s.document t path).1.load t = s.load t := rfl
  rw [(hs.document t path).document_snd, hload, hs.kept?_document]
  -- a document that cannot be read is not remembered, but reading it again fails in the same way
  by_cases hkey : Path.absolute t.cwdPath other = Path.absolute t.cwdPath path
  · rw [if_pos hkey, hs.document_snd, hs.document_snd, hkey]
    cases s.documents.kept? (Path.absolute t.cwdPath path) with
    | some d => rfl
    | none =>
        cases hl : s.load t (Path.absolute t.cwdPath path) with
        | error e => simp [Except.toOption]
        | ok d => simp [Except.toOption]
  · rw [if_neg hkey, hs.document_snd]

/-- While the files stay as they are, no inquiry changes an answer about a document. -/
theorem Sound.document_run {α : Type} (hs : s.Sound) (t : FileTree) (q : Inquiry α)
    (other : String) : ((s.run t q).1.document t other).2 = (s.document t other).2 := by
  induction q generalizing s with
  | answer a => rfl
  | document path next ih =>
      exact (ih _ (hs.document t path)).trans (hs.document_document t path other)
  | file name next ih =>
      refine (ih _ (hs.find t name)).trans ?_
      have hload : (s.find t name).1.load t = s.load t := by
        unfold find
        split <;> rfl
      rw [(hs.find t name).document_snd, hs.document_snd, documents_find, hload]

end Session

/-! ### Inquiries into documents -/

namespace Inquiry

variable {α β : Type}

/-- An inquiry that asks for documents only. -/
inductive AsksDocuments : Inquiry α → Prop where
  | answer (a : α) : AsksDocuments (.answer a)
  | document (path : String) {next : Except ReadFailure Document → Inquiry α} :
      (∀ r, AsksDocuments (next r)) → AsksDocuments (.document path next)

theorem AsksDocuments.bind {q : Inquiry α} {f : α → Inquiry β} (hq : q.AsksDocuments)
    (hf : ∀ a, (f a).AsksDocuments) : (q.bind f).AsksDocuments := by
  induction hq with
  | answer a => exact hf a
  | document path _ ih => exact .document path ih

theorem AsksDocuments.each {ask : α → Inquiry β} (h : ∀ a, (ask a).AsksDocuments) :
    ∀ as : List α, (Inquiry.each ask as).AsksDocuments := by
  intro as
  induction as with
  | nil => exact .answer []
  | cons a as ih => exact (h a).bind fun b => ih.bind fun bs => .answer (b :: bs)

end Inquiry

/-- **Inquiries into documents are answered as if each document was always the same**: as it is for
the first question. -/
theorem Session.Sound.run_eq_eval {α : Type} {s : Session} (hs : s.Sound) (t : FileTree)
    {q : Inquiry α} (hq : q.AsksDocuments)
    (files : String → Except SearchFailure (Option NameResolution)) :
    (s.run t q).2 = q.eval (fun path => (s.document t path).2) files := by
  induction hq generalizing s with
  | answer a => rfl
  | document path _ ih =>
      -- the rest is asked of another session, which gives the same documents
      refine (ih _ (hs.document t path)).trans ?_
      simp only [hs.document_document]
      rfl

/-- While the files stay as they are, the answer to an inquiry into documents is the same before and
after any other inquiry. -/
theorem Session.Sound.run_run {α β : Type} {s : Session} (hs : s.Sound) (t : FileTree)
    (p : Inquiry β) {q : Inquiry α} (hq : q.AsksDocuments) :
    ((s.run t p).1.run t q).2 = (s.run t q).2 := by
  have files : String → Except SearchFailure (Option NameResolution) := fun _ => .ok none
  rw [(hs.run t p).run_eq_eval t hq files, hs.run_eq_eval t hq files]
  simp only [hs.document_run]

end Citations

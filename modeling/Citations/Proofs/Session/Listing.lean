/-
**Listing the scope of a session.**

A session lists its scope when it starts, and anew when the scope has come to lead elsewhere.  Only
then can it fail to say what a name leads to, if the scope has a real path at all; and as long as it
does not fail, a name leads to the same, whatever was asked before.  So what is sure of an inquiry
as long as names are answered is sure of it in every session whose list is up to date, and whichever
way several inquiries take turns.

Main definitions:

* `Citations.Session.listingFailure?` — why a session would fail to say what a name leads to;
* `Citations.Session.AnswersNames` — a session that says of every name what it leads to;
* `Citations.Inquiry.Ensures` — what is sure of an inquiry as long as names are answered.

Main results:

* `Citations.Session.find_find` — a name leads to the same when another one was asked for before;
* `Citations.Inquiry.Ensures.run`, `Citations.Concurrent.ensures_of_answers?` — **what is sure of an
  inquiry comes to pass**, if it is answered by itself, and if it takes turns with others.
-/

import Citations.Proofs.Session.Memory

set_option relaxedAutoImplicit false
set_option autoImplicit false

namespace Citations

namespace FileIndex

variable {i : FileIndex} {t : FileTree} {scope root : String}

/-- A list that was made of a scope is not made again while the scope leads to the same place. -/
theorem forScope_ofScope (h : scopeRoot t scope = .ok root) :
    (ofScope t scope).forScope t (some scope) = (ofScope t scope, none) := by
  rw [forScope, h]
  dsimp only
  rw [if_pos]
  rw [scope_ofScope, h]
  rfl

/-- A scope that has a real path is listed once at most. -/
theorem forScope_forScope (h : scopeRoot t scope = .ok root) (i : FileIndex) :
    (i.forScope t (some scope)).1.forScope t (some scope) =
      ((i.forScope t (some scope)).1, none) := by
  by_cases hscope : some root = i.scope
  · have hi : i.forScope t (some scope) = (i, none) := by
      rw [forScope, h]
      exact if_pos hscope
    rw [hi]
    exact hi
  · have hi : i.forScope t (some scope) = (ofScope t scope, failure? t scope) := by
      rw [forScope, h, ← build_of_scopeRoot h i]
      exact if_neg hscope
    rw [hi]
    exact forScope_ofScope h

/-- A scope without a real path is not listed at any time. -/
theorem exists_scopeRoot_of_forScope (h : (i.forScope t (some scope)).2 = none) :
    ∃ root, scopeRoot t scope = .ok root := by
  rw [forScope] at h
  split at h
  · cases h
  · rename_i root hroot
    exact ⟨root, hroot⟩

end FileIndex

namespace Session

variable {s u : Session} {t : FileTree} {e : SearchFailure}

/-! ### Why a name is not answered -/

/-- Why a session would fail to say what a name leads to: it has to list its scope, and cannot. -/
def listingFailure? (t : FileTree) (s : Session) : Option SearchFailure :=
  s.finder.bind fun f => (f.index.forScope t (some f.scope)).2

theorem find_eq_error (h : s.listingFailure? t = some e) (name : String) :
    (s.find t name).2 = .error e := by
  obtain ⟨f, hf, hfail⟩ := Option.bind_eq_some_iff.1 h
  rw [find, hf]
  simp only [FileIndex.resolve, hfail]
  rfl

theorem exists_find_eq_ok (h : s.listingFailure? t = none) (name : String) :
    ∃ named, (s.find t name).2 = .ok named := by
  cases hf : s.finder with
  | none =>
      rw [find, hf]
      exact ⟨none, rfl⟩
  | some f =>
      rw [listingFailure?, hf, Option.bind_some] at h
      rw [find, hf]
      simp only [FileIndex.resolve, h]
      exact ⟨_, rfl⟩

/-- A session that does not fail has no reason to fail afterwards. -/
theorem listingFailure?_find (h : s.listingFailure? t = none) (name : String) :
    (s.find t name).1.listingFailure? t = none := by
  cases hf : s.finder with
  | none =>
      rw [find, hf]
      simp only [listingFailure?, hf, Option.bind_none]
  | some f =>
      rw [listingFailure?, hf, Option.bind_some] at h
      obtain ⟨root, hroot⟩ := FileIndex.exists_scopeRoot_of_forScope h
      rw [find, hf]
      simp only [listingFailure?, FileIndex.resolve, Option.bind_some,
        FileIndex.forScope_forScope hroot]

theorem listingFailure?_run {α : Type} (h : s.listingFailure? t = none) (q : Inquiry α) :
    (s.run t q).1.listingFailure? t = none := by
  induction q generalizing s with
  | answer a => exact h
  | document path next ih => exact ih _ h
  | file name next ih => exact ih _ (listingFailure?_find h name)

/-! ### The same answers to names -/

theorem find_snd_of_finder {f : Finder} (h : s.finder = some f) (name : String) :
    (s.find t name).2 = (f.index.resolve t name (some f.scope)).2.map some := by
  rw [find, h]

/-- What a name leads to depends on the list of the scope alone. -/
theorem find_snd_congr (h : u.finder = s.finder) (name : String) :
    (u.find t name).2 = (s.find t name).2 := by
  unfold find
  rw [h]
  cases s.finder <;> rfl

/-- A name leads to the same when another one was asked for before. -/
theorem find_find (h : s.listingFailure? t = none) (name other : String) :
    ((s.find t other).1.find t name).2 = (s.find t name).2 := by
  cases hf : s.finder with
  | none =>
      have hs : (s.find t other).1 = s := by rw [find, hf]
      rw [hs]
  | some f =>
      rw [listingFailure?, hf, Option.bind_some] at h
      obtain ⟨root, hroot⟩ := FileIndex.exists_scopeRoot_of_forScope h
      have hfinder : (s.find t other).1.finder =
          some { f with index := (f.index.forScope t (some f.scope)).1 } := by
        rw [find, hf]
        rfl
      rw [find_snd_of_finder hfinder, find_snd_of_finder hf]
      simp only [FileIndex.resolve, FileIndex.forScope_forScope hroot, h]

/-- Asking for documents does not change what is known of the scope. -/
theorem finder_run {α : Type} {q : Inquiry α} (hq : q.AsksDocuments) :
    (s.run t q).1.finder = s.finder := by
  induction hq generalizing s with
  | answer a => rfl
  | document path _ ih => exact ih _

/-- Whatever name is asked for, the session says what it leads to, and `K` is true of that. -/
def AnswersNames (t : FileTree) (K : Option NameResolution → Prop) (s : Session) : Prop :=
  ∀ name, ∃ named, (s.find t name).2 = .ok named ∧ K named

namespace AnswersNames

variable {K : Option NameResolution → Prop}

theorem listed (h : s.AnswersNames t K) : s.listingFailure? t = none := by
  obtain ⟨named, hnamed, -⟩ := h ""
  cases hfail : s.listingFailure? t with
  | none => rfl
  | some e =>
      rw [find_eq_error hfail] at hnamed
      cases hnamed

protected theorem find (h : s.AnswersNames t K) (other : String) :
    (s.find t other).1.AnswersNames t K := by
  intro name
  rw [find_find h.listed]
  exact h name

protected theorem congr (h : s.AnswersNames t K) (hu : u.finder = s.finder) :
    u.AnswersNames t K := by
  intro name
  rw [find_snd_congr hu]
  exact h name

end AnswersNames

theorem answersNames_of_listed {K : Option NameResolution → Prop}
    (h : s.listingFailure? t = none)
    (hK : ∀ name named, (s.find t name).2 = .ok named → K named) : s.AnswersNames t K := by
  intro name
  obtain ⟨named, hnamed⟩ := exists_find_eq_ok h name
  exact ⟨named, hnamed, hK name named hnamed⟩

end Session

/-! ### What is sure of an inquiry -/

namespace Inquiry

variable {α β : Type} {K : Option NameResolution → Prop} {P : α → Prop} {Q : β → Prop}
  {q : Inquiry α}

/-- Whatever the documents are, and as long as names are answered with something of which `K` is
true, an inquiry comes to an answer of which `P` is true. -/
inductive Ensures (K : Option NameResolution → Prop) (P : α → Prop) : Inquiry α → Prop where
  | answer {a : α} : P a → Ensures K P (.answer a)
  | document (path : String) {next : Except ReadFailure Document → Inquiry α} :
      (∀ r, Ensures K P (next r)) → Ensures K P (.document path next)
  | file (name : String) {next : Except SearchFailure (Option NameResolution) → Inquiry α} :
      (∀ named, K named → Ensures K P (next (.ok named))) → Ensures K P (.file name next)

theorem Ensures.bind {f : α → Inquiry β} (hq : q.Ensures K P)
    (hf : ∀ a, P a → (f a).Ensures K Q) : (q.bind f).Ensures K Q := by
  induction hq with
  | answer ha => exact hf _ ha
  | document path _ ih => exact .document path ih
  | file name _ ih => exact .file name ih

theorem Ensures.mono {P' : α → Prop} (hq : q.Ensures K P) (h : ∀ a, P a → P' a) :
    q.Ensures K P' := by
  induction hq with
  | answer ha => exact .answer (h _ ha)
  | document path _ ih => exact .document path ih
  | file name _ ih => exact .file name ih

theorem ensures_of_forall (h : ∀ a, P a) (q : Inquiry α) : q.Ensures K P := by
  induction q with
  | answer a => exact .answer (h a)
  | document path next ih => exact .document path ih
  | file name next ih => exact .file name fun named _ => ih (.ok named)

theorem Ensures.each {ask : α → Inquiry β} (h : ∀ a, (ask a).Ensures K Q) (as : List α) :
    (Inquiry.each ask as).Ensures K fun bs => bs.length = as.length ∧ ∀ b ∈ bs, Q b := by
  induction as with
  | nil => exact .answer ⟨rfl, by simp⟩
  | cons a as ih =>
      refine (h a).bind fun b hb => ih.bind fun bs hbs => .answer ⟨by simp [hbs.1], ?_⟩
      intro x hx
      rcases List.mem_cons.1 hx with rfl | hx
      · exact hb
      · exact hbs.2 x hx

/-- What is sure of an inquiry comes to pass, if it is answered by itself. -/
theorem Ensures.run {s : Session} {t : FileTree} (hq : q.Ensures K P)
    (h : s.AnswersNames t K) : P (s.run t q).2 := by
  induction hq generalizing s with
  | answer ha => exact ha
  | document path _ ih => exact ih _ (h.congr (u := (s.document t path).1) rfl)
  | file name _ ih =>
      obtain ⟨named, hnamed, hK⟩ := h name
      have hrest := ih named hK (h.find name)
      rw [← hnamed] at hrest
      exact hrest

/-- An inquiry into documents asks for no names. -/
theorem Ensures.run_of_asksDocuments {s : Session} {t : FileTree} (hq : q.Ensures K P)
    (hasks : q.AsksDocuments) : P (s.run t q).2 := by
  induction hq generalizing s with
  | answer ha => exact ha
  | document path _ ih =>
      cases hasks with
      | document _ hnext => exact ih _ (hnext _)
  | file name _ _ => cases hasks

end Inquiry

/-! ### Inquiries that take turns -/

/-- What is sure of an inquiry, however far it has come. -/
def Task.Ensures {α : Type} (K : Option NameResolution → Prop) (P : α → Prop) : Task α → Prop
  | .ready q => q.Ensures K P
  | .waiting _ next => ∀ r, (next r).Ensures K P

theorem Task.Ensures.of_answer? {α : Type} {K : Option NameResolution → Prop} {P : α → Prop}
    {task : Task α} {a : α} (h : task.Ensures K P) (ha : task.answer? = some a) : P a := by
  cases task with
  | ready q =>
      cases q with
      | answer b =>
          cases ha
          cases h with
          | answer hb => exact hb
      | document path next => cases ha
      | file name next => cases ha
  | waiting load next => cases ha

namespace Concurrent

variable {α : Type} {K : Option NameResolution → Prop} {P : α → Prop} {t : FileTree}
  {c d : Concurrent α}

/-- In this state names are answered, and all inquiries are as sure as they should be. -/
structure Ensures (t : FileTree) (K : Option NameResolution → Prop) (P : α → Prop)
    (c : Concurrent α) : Prop where
  names : c.session.AnswersNames t K
  tasks : ∀ task ∈ c.tasks, task.Ensures K P

theorem Ensures.set {s : Session} (hc : c.Ensures t K P) (hs : s.AnswersNames t K) (k : Nat)
    {task : Task α} (htask : task.Ensures K P) : Ensures t K P ⟨s, c.tasks.set k task⟩ := by
  refine ⟨hs, fun other hother => ?_⟩
  rcases List.mem_or_eq_of_mem_set hother with h | rfl
  · exact hc.tasks other h
  · exact htask

theorem Ensures.ask (hc : c.Ensures t K P) {k : Nat} {q : Inquiry α} (hq : q.Ensures K P)
    (h : c.ask t k q = some d) : d.Ensures t K P := by
  cases hq with
  | answer _ => cases h
  | document path hnext =>
      cases h
      have htask (load : Nat) : Task.Ensures K P (.waiting load _) := hnext
      exact hc.set (hc.names.congr (by rfl)) k (htask _)
  | file name hnext =>
      cases h
      obtain ⟨named, hnamed, hK⟩ := hc.names name
      refine hc.set (hc.names.find name) k ?_
      rw [hnamed]
      exact hnext named hK

theorem Ensures.step? (hc : c.Ensures t K P) {ev : Event} (h : c.step? t ev = some d) :
    d.Ensures t K P := by
  cases ev with
  | ask k =>
      simp only [Concurrent.step?] at h
      split at h
      · rename_i q hq
        have htask : Task.Ensures K P (.ready q) := hc.tasks _ (List.mem_of_getElem? hq)
        exact hc.ask htask h
      · cases h
  | start load =>
      simp only [Concurrent.step?] at h
      split at h
      · cases h
        exact ⟨hc.names.congr (by rfl), hc.tasks⟩
      · cases h
  | finish load =>
      simp only [Concurrent.step?] at h
      split at h
      · cases h
        exact ⟨hc.names.congr (by rfl), hc.tasks⟩
      · cases h
  | hear k =>
      simp only [Concurrent.step?] at h
      split at h
      · rename_i load next hq
        obtain ⟨outcome, -, rfl⟩ := Option.map_eq_some_iff.1 h
        exact hc.set hc.names k (hc.tasks _ (List.mem_of_getElem? hq) outcome)
      · cases h

theorem Ensures.reachable (hc : c.Ensures t K P) (h : Reachable t c d) : d.Ensures t K P := by
  induction h with
  | refl => exact hc
  | step _ hstep ih => exact ih.step? hstep

theorem ensures_start {s : Session} (h : s.AnswersNames t K) {qs : List (Inquiry α)}
    (hqs : ∀ q ∈ qs, q.Ensures K P) : (start s qs).Ensures t K P := by
  refine ⟨h, fun task htask => ?_⟩
  obtain ⟨q, hq, rfl⟩ := List.mem_map.1 htask
  exact hqs q hq

/-- The answers of tasks that are as sure as they should be. -/
theorem ensures_of_mapM_answer? {tasks : List (Task α)} {as : List α}
    (htasks : ∀ task ∈ tasks, task.Ensures K P) (h : tasks.mapM Task.answer? = some as) :
    as.length = tasks.length ∧ ∀ a ∈ as, P a := by
  induction tasks generalizing as with
  | nil =>
      cases h
      simp
  | cons task tasks ih =>
      rw [List.mapM_cons] at h
      obtain ⟨a, ha, h⟩ := Option.bind_eq_some_iff.1 h
      obtain ⟨rest, hrest, h⟩ := Option.bind_eq_some_iff.1 h
      cases h
      have ⟨hlength, hall⟩ := ih (fun x hx => htasks x (List.mem_cons_of_mem _ hx)) hrest
      refine ⟨by simp [hlength], fun x hx => ?_⟩
      rcases List.mem_cons.1 hx with rfl | hx
      · exact (htasks task (List.mem_cons_self ..)).of_answer? ha
      · exact hall x hx

/-- What is sure of inquiries comes to pass, whichever way they take turns. -/
theorem ensures_of_answers? {s : Session} (h : s.AnswersNames t K) {qs : List (Inquiry α)}
    (hqs : ∀ q ∈ qs, q.Ensures K P) (hreach : Reachable t (start s qs) c) {as : List α}
    (has : c.answers? = some as) : as.length = qs.length ∧ ∀ a ∈ as, P a := by
  have hc := (ensures_start h hqs).reachable hreach
  have hanswers := ensures_of_mapM_answer? hc.tasks has
  rw [length_tasks_of_reachable hreach, start, List.length_map] at hanswers
  exact hanswers

end Concurrent

end Citations

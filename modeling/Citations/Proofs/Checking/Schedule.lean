/-
**Checking a document at any time and in any order.**

While the files stay as they are, what comes of checking a link is settled: it is the same whether
the link is checked by itself, after others, or while they are being checked, and whatever the
session has been asked before.  A link is marked with its verdict when it was checked, but no check
looks at such marks.  So checking a document again changes nothing, and neither does the order in
which the checks of its links take turns.

A link has no verdict only if a path that is looked for holds a null character.  All such links fail
in the same way, so that it does not matter either which of them is the first to do so.

Main definitions:

* `Citations.Session.Settles` — **what it is that the outcome for each link is settled**.

Main results:

* `Citations.Session.LeadsTo.run_snd_of_listed` — an inquiry comes to the same at any time;
* `Citations.Session.checks_settled` — **checking does not depend on time or order**.
-/

import Citations.Proofs.Checking.Conversion
import Citations.Proofs.Path.Normal
import Citations.Proofs.Session.Turns

set_option relaxedAutoImplicit false
set_option autoImplicit false

namespace Citations

namespace Session

open Checking

variable {s u : Session} {t : FileTree} {path : String} {d : Document}

/-! ### The same at any time -/

/-- While the files stay as they are, an inquiry comes to the same at any time, as long as the scope
need not be listed in vain. -/
theorem LeadsTo.run_snd_of_listed {α : Type} (h : s.LeadsTo t u) (hs : s.Sound)
    (hlisted : s.listingFailure? t = none) (q : Inquiry α) : (u.run t q).2 = (s.run t q).2 := by
  rw [(h.sound hs).run_eq_eval_of_listed (h.listed hlisted), hs.run_eq_eval_of_listed hlisted]
  simp only [h.document_snd hs, h.find_snd hlisted]

/-- An inquiry about each element comes to what it comes to about one of them, element by
element. -/
theorem Sound.run_each_of_listed {α β : Type} (hs : s.Sound)
    (hlisted : s.listingFailure? t = none) (ask : α → Inquiry β) (as : List α) :
    (s.run t (.each ask as)).2 = as.map fun a => (s.run t (ask a)).2 := by
  rw [hs.run_eq_eval_of_listed hlisted, Inquiry.eval_each]
  refine List.map_congr_left fun a _ => ?_
  rw [hs.run_eq_eval_of_listed hlisted]

theorem policy_find (s : Session) (t : FileTree) (name : String) :
    (s.find t name).1.policy = s.policy := by
  unfold find
  split <;> rfl

theorem policy_run {α : Type} (q : Inquiry α) : (s.run t q).1.policy = s.policy := by
  induction q generalizing s with
  | answer a => rfl
  | document path next ih => exact ih _
  | file name next ih => exact (ih _).trans (policy_find s t name)

theorem policy_step {α : Type} {c d : Concurrent α} {ev : Concurrent.Event} (h : c.Step t ev d) :
    d.session.policy = c.session.policy := by
  cases h with
  | file _ => exact policy_find c.session t _
  | _ => rfl

/-- A session keeps its policy. -/
protected theorem LeadsTo.policy (h : s.LeadsTo t u) : u.policy = s.policy :=
  h.invariant (P := fun v => v.policy = s.policy) rfl (fun q hv => (policy_run q).trans hv)
    fun hevent hc => (policy_step hevent).trans hc

/-! ### One outcome for each link -/

/-- **What it is that the outcome for each link of a document is settled**, as long as the files
stay as they are since the session was `s`. -/
structure Settles (t : FileTree) (s : Session) (path : String) (d : Document)
    (outcome : Link → Except SearchFailure Verdict) : Prop where
  /-- No check looks at the mark that an earlier check has left. -/
  unmarked : ∀ l v, outcome { l with verdict := v } = outcome l
  /-- There is a verdict, unless a path holds a null character. -/
  verdict : ∀ links, s.IsNullFree t links → ∀ l ∈ links, ∃ v, outcome l = .ok v
  /-- Where there is no verdict, it is for the same reason. -/
  failure : ∀ l e, outcome l = .error e → e = .nullCharacter
  /-- The document is checked as a whole, for the first time or again. -/
  validate : ∀ u, s.LeadsTo t u →
    (u.validate t path).2 = (enrich d.links (d.links.map outcome)).mapError .search
  /-- The checks of its links take turns in any way. -/
  turns : ∀ u, s.LeadsTo t u → ∀ c rs, Concurrent.Reachable t (.checkingOf t u d) c →
    c.answers? = some rs → rs = d.links.map outcome
  /-- Whichever way they take turns, they can come to an end. -/
  ends : ∀ u, s.LeadsTo t u → ∀ c, Concurrent.Reachable t (.checkingOf t u d) c →
    ∃ e rs, Concurrent.Reachable t c e ∧ e.answers? = some rs
  /-- Links are checked one after another, in any order. -/
  each : ∀ u, s.LeadsTo t u → ∀ links,
    (u.run t (.each (checkOf t u.policy d) links)).2 = links.map outcome
  /-- A link of the document is checked by itself. -/
  alone : ∀ u, s.LeadsTo t u → ∀ l ∈ d.links,
    (u.run t (check t u.policy l.source l)).2 = (outcome l).mapError .search

/-- What comes of a link that is checked by itself is what comes of it for its document. -/
theorem run_check_of_document {l : Link} (hsource : (s.document t l.source).2 = .ok d) :
    (s.run t (check t s.policy l.source l)).2 =
      (s.run t (checkOf t s.policy d l)).2.mapError .search := by
  cases hl : l.target.path with
  | some target =>
      rw [run_check_eq hl]
      unfold checkOf
      rw [hl]
  | none =>
      unfold check checkOf inDocument
      rw [hl]
      by_cases hcaret : l.kind = .caret
      · simp only [if_pos hcaret]
        rfl
      · simp only [if_neg hcaret]
        change ((s.document t l.source).2.mapError CheckFailure.unreadable).map _ = _
        rw [hsource]
        rfl

/-- The outcome for each link of a document is settled, as long as names are answered. -/
theorem Sound.settles (hs : s.Sound) (hlisted : s.listingFailure? t = none)
    (hfile : t.isFile path = true) (hd : (s.document t path).2 = .ok d)
    (hsource : ∀ l ∈ d.links, (s.document t l.source).2 = .ok d) :
    Settles t s path d fun l => (s.run t (checkOf t s.policy d l)).2 := by
  have hlater {u : Session} (hu : s.LeadsTo t u) (l : Link) :
      (u.run t (checkOf t u.policy d l)).2 = (s.run t (checkOf t s.policy d l)).2 := by
    rw [hu.policy, hu.run_snd_of_listed hs hlisted]
  have heach {u : Session} (hu : s.LeadsTo t u) (links : List Link) :
      (u.run t (.each (checkOf t u.policy d) links)).2 =
        links.map fun l => (s.run t (checkOf t s.policy d l)).2 := by
    rw [(hu.sound hs).run_each_of_listed (hu.listed hlisted)]
    simp only [hlater hu]
  refine ⟨fun l v => rfl, ?verdict, ?failure, ?validate, ?turns, ?ends, fun u hu => heach hu,
    ?alone⟩
  case verdict =>
    intro links hfree l hl
    exact hfree.exists_verdict hlisted s.policy d hl
  case failure =>
    intro l e h
    exact (ensures_checkOf_any t s.policy d l).run (answersNames_any hlisted) e h
  case validate =>
    intro u hu
    have hdu : (u.document t path).2 = .ok d := (hu.document_snd hs path).trans hd
    have hasked : s.LeadsTo t (u.document t path).1 := hu.run (.askDocument path)
    have houtcomes := heach hasked d.links
    rw [hasked.policy, ← hu.policy] at houtcomes
    rw [validate_snd hfile hdu, run_checkAll_snd, houtcomes, hu.policy]
  case turns =>
    intro u hu c rs hc hrs
    have hanswers := Concurrent.answers_eq (hu.sound hs) (hu.listed hlisted) hc hrs
    rw [hanswers, List.map_map]
    exact List.map_congr_left fun l _ => hlater hu l
  case ends =>
    intro u hu c hc
    exact Concurrent.exists_answers (hu.sound hs) (hu.listed hlisted) hc
  case alone =>
    intro u hu l hl
    rw [run_check_of_document ((hu.document_snd hs l.source).trans (hsource l hl)), hlater hu]

/-- **Checking does not depend on time or order**: while the files stay as they are, what comes of
checking a document is always the same, and if it can be read, so is what comes of each link. -/
theorem checks_settled (hs : s.ReachableIn t) (path : String) :
    (∀ u, s.LeadsTo t u → (u.validate t path).2 = (s.validate t path).2) ∧
      ∀ d, t.isFile path = true → (s.document t path).2 = .ok d →
        ∃ outcome, Settles t s path d outcome := by
  have hsteady := hs.steady
  have hlisted := hsteady.listed_eq_none
  refine ⟨fun u hu => ?_, fun d hfile hd => ⟨_, hsteady.sound.settles hlisted hfile hd ?_⟩⟩
  · rw [validate_eq_run, validate_eq_run, hu.policy,
      hu.run_snd_of_listed hsteady.sound hlisted]
  · intro l hl
    have hload : s.load t (Path.absolute t.cwdPath path) = .ok d := by
      rw [← hsteady.document_snd, hd]
    have hcwd : Path.isAbsolute t.cwdPath = true := FileTree.isAbsolute_pathTo t.cwd
    -- the links of a document name it by its key, which is a normal form already
    rw [hsteady.document_snd, source_of_mem_links_of_load hload hl, Path.absolute_absolute hcwd,
      hload]

/-- A document with links to a section that is there, to one that is not, to a file in another
directory, and to a section of its own. -/
def crossing : FileTree where
  cwd := []
  nodes :=
    [(["s.md"], .file "[x](a.md#One)\n[y](a.md#Two)\n[z](b.md)\n[w](#Here)\n".toUTF8.toList),
      (["a.md"], .file "# One\n".toUTF8.toList), (["lib"], .directory),
      (["lib", "b.md"], .file [])]

/-- A session that looks for files by name. -/
def crossingSession : Session := start crossing .standard ⟨.finite false 0, 5⟩ (some "/lib")

theorem reachableIn_crossingSession : crossingSession.ReachableIn crossing := by
  have hroot : FileIndex.scopeRoot crossing "/lib" = .ok "/lib" := by decide +kernel
  exact .start _ _ _ (hasScopeRoot_start_some hroot _ _)

/-- The outcome for two links that share a target, and two others, is settled. -/
theorem checks_settled_crossing :
    ((crossingSession.validate crossing "/s.md").2.map Summary.ofLinks).toOption =
        some ⟨4, 1, 1, 2⟩ ∧
      ∃ d outcome, (crossingSession.document crossing "/s.md").2 = .ok d ∧
        Settles crossing crossingSession "/s.md" d outcome := by
  have hfile : crossing.isFile "/s.md" = true := by decide +kernel
  have hread : (crossingSession.document crossing "/s.md").2.toOption.isSome = true := by
    decide +kernel
  refine ⟨by decide +kernel, ?_⟩
  cases hd : (crossingSession.document crossing "/s.md").2 with
  | error e =>
      rw [hd] at hread
      cases hread
  | ok d =>
      obtain ⟨outcome, houtcome⟩ :=
        (checks_settled reachableIn_crossingSession "/s.md").2 d hfile hd
      exact ⟨d, outcome, rfl, houtcome⟩

end Session

end Citations

/-
**Checking a link in a session, step by step.**

The verdict on a link to a file comes about in two steps: where its path leads, and whether the
document there has its anchor.  Each step asks the session at most one question, and what it comes
to is read off the answer.

Main definitions:

* `Citations.Checking.validation` — checking all links of a document as an inquiry.

Main results:

* `Citations.Session.run_target_of_direct`, `Citations.Session.run_target_of_not_direct` — where a
  path leads, as a session answers;
* `Citations.Session.run_withAnchor_eq`, `Citations.Session.eq_and_anchored_of_run_withAnchor` —
  whether the anchor is there;
* `Citations.Session.run_verdictAt_found`, `Citations.Session.run_verdictAt_elsewhere`,
  `Citations.Session.run_acrossDocuments_eq`, `Citations.Session.run_check_eq` — the verdict;
* `Citations.Session.validate_eq_run` — checking a document is answering an inquiry.
-/

import Citations.Session
import Citations.Summary

set_option relaxedAutoImplicit false
set_option autoImplicit false

namespace Citations.Session

open Text

variable {s : Session} {t : FileTree} {raw source path a : String} {policy : SuggestionPolicy}

theorem run_target_of_direct (h : Resolution.direct? t raw source = .ok (some path)) :
    s.run t (Checking.target t raw source) = (s, .ok (.found path)) := by
  rw [Checking.target, h]
  rfl

theorem run_target_of_not_direct (h : Resolution.direct? t raw source = .ok none) :
    s.run t (Checking.target t raw source) =
      ((s.find t (Path.fileName (decode raw))).1,
        (s.find t (Path.fileName (decode raw))).2.bind (Checking.byName t raw source)) := by
  rw [Checking.target, h]
  rfl

/-- What is said of a link whose path leads to a file, once it is known what comes of reading it. -/
def anchorVerdict (policy : SuggestionPolicy) (a path : String) (outcome : Verdict)
    (note : Option String) : Except ReadFailure Document → Verdict
  | .error e => .error ("Cannot read target file: " ++ path) (some e.message)
  | .ok d =>
      if d.hasAnchor a then outcome
      else .error ((note.map (· ++ ". ")).getD "" ++ Checking.anchorProblem a)
        (some (d.suggestion policy a))

theorem run_withAnchor_eq (ha : a ≠ "") (outcome : Verdict) (note : Option String) :
    s.run t (Checking.withAnchor policy (some a) path outcome note) =
      ((s.document t path).1, anchorVerdict policy a path outcome note (s.document t path).2) := by
  have hrun : s.run t (Checking.withAnchor policy (some a) path outcome note) =
      (s.document t path).1.run t (match (s.document t path).2 with
        | .error e => .answer (.error ("Cannot read target file: " ++ path) (some e.message))
        | .ok d =>
            if d.hasAnchor a then .answer outcome
            else .answer (.error ((note.map (· ++ ". ")).getD "" ++ Checking.anchorProblem a)
              (some (d.suggestion policy a)))) := by
    rw [Checking.withAnchor, if_neg ha]
    rfl
  rw [hrun]
  cases (s.document t path).2 with
  | error e => rfl
  | ok d =>
      simp only [anchorVerdict]
      split <;> rfl

/-- Whether the document at a path has the anchor of a link, if the link has one. -/
def Anchored (t : FileTree) (s : Session) (path : String) (anchor : Option String) : Prop :=
  ∀ a, anchor = some a → a ≠ "" → ∃ d, (s.document t path).2 = .ok d ∧ d.hasAnchor a = true

theorem run_withAnchor_of_anchored {anchor : Option String} (h : s.Anchored t path anchor)
    (outcome : Verdict) (note : Option String) :
    (s.run t (Checking.withAnchor policy anchor path outcome note)).2 = outcome := by
  cases anchor with
  | none => rfl
  | some a =>
      by_cases ha : a = ""
      · rw [Checking.withAnchor, if_pos ha]
        rfl
      · obtain ⟨d, hd, hanchor⟩ := h a rfl ha
        rw [run_withAnchor_eq ha, hd]
        exact if_pos hanchor

/-- A verdict that finds a link at its path is the one that was to be confirmed, and the anchor is
there. -/
theorem eq_and_anchored_of_run_withAnchor {anchor : Option String} {outcome v : Verdict}
    {note : Option String}
    (h : (s.run t (Checking.withAnchor policy anchor path outcome note)).2 = v)
    (hv : v.isError = false) : v = outcome ∧ s.Anchored t path anchor := by
  cases anchor with
  | none => exact ⟨h.symm, fun a ha => by cases ha⟩
  | some a =>
      by_cases ha : a = ""
      · rw [Checking.withAnchor, if_pos ha] at h
        refine ⟨h.symm, fun a' ha' hne => ?_⟩
        cases ha'
        exact absurd ha hne
      · rw [run_withAnchor_eq ha] at h
        cases hd : (s.document t path).2 with
        | error e =>
            rw [hd] at h
            subst h
            cases hv
        | ok d =>
            rw [hd] at h
            simp only [anchorVerdict] at h
            split at h
            · rename_i hanchor
              refine ⟨h.symm, fun a' ha' _ => ?_⟩
              cases ha'
              exact ⟨d, hd, hanchor⟩
            · subst h
              cases hv

/-! ### The verdict -/

theorem run_verdictAt_found (anchor : Option String) :
    s.run t (Checking.verdictAt t policy raw anchor source (.found path)) =
      ((s.run t (Checking.withAnchor policy anchor path (.valid (some path)) none)).1,
        .ok (s.run t (Checking.withAnchor policy anchor path (.valid (some path)) none)).2) :=
  run_bind t s (Checking.withAnchor policy anchor path _ none) _

theorem run_verdictAt_elsewhere {anchor message : Option String} {mended : PathConversion}
    (h : Checking.conversion t raw anchor source path = .ok mended) :
    s.run t (Checking.verdictAt t policy raw anchor source (.elsewhere path message)) =
      ((s.run t (Checking.withAnchor policy anchor path
          (.warning (Checking.elsewhereProblem path) mended path message)
          (some (Checking.elsewhereProblem path)))).1,
        .ok (s.run t (Checking.withAnchor policy anchor path
          (.warning (Checking.elsewhereProblem path) mended path message)
          (some (Checking.elsewhereProblem path)))).2) := by
  simp only [Checking.verdictAt, h]
  exact run_bind t s (Checking.withAnchor policy anchor path _ _) _

/-- The verdict on a link to a file: none where it cannot be said where its path leads. -/
theorem run_acrossDocuments_eq (anchor : Option String) :
    s.run t (Checking.acrossDocuments t policy raw anchor source) =
      match s.run t (Checking.target t raw source) with
      | (s', .error e) => (s', .error e)
      | (s', .ok destination) =>
          s'.run t (Checking.verdictAt t policy raw anchor source destination) := by
  refine (run_bind t s (Checking.target t raw source) _).trans ?_
  cases s.run t (Checking.target t raw source) with
  | mk s' r =>
      cases r with
      | error e => rfl
      | ok destination => rfl

/-- Where there is a verdict, it is known where the path leads. -/
theorem exists_of_run_acrossDocuments {anchor : Option String} {v : Verdict}
    (h : (s.run t (Checking.acrossDocuments t policy raw anchor source)).2 = .ok v) :
    ∃ destination, (s.run t (Checking.target t raw source)).2 = .ok destination ∧
      s.run t (Checking.acrossDocuments t policy raw anchor source) =
        (s.run t (Checking.target t raw source)).1.run t
          (Checking.verdictAt t policy raw anchor source destination) := by
  rw [run_acrossDocuments_eq] at h ⊢
  cases htarget : s.run t (Checking.target t raw source) with
  | mk s' r =>
      rw [htarget] at h
      cases r with
      | error e => cases h
      | ok destination => exact ⟨destination, rfl, rfl⟩

theorem run_check_eq {l : Link} {target : TargetPath} (h : l.target.path = some target) :
    s.run t (Checking.check t policy source l) =
      ((s.run t (Checking.acrossDocuments t policy target.raw l.target.anchor source)).1,
        (s.run t (Checking.acrossDocuments t policy target.raw l.target.anchor source)).2.mapError
          .search) := by
  unfold Checking.check
  rw [h]
  exact run_bind t s (Checking.acrossDocuments t policy target.raw l.target.anchor source) _

end Citations.Session

/-! ### All links of a document -/

namespace Citations

/-- **Checking all links of the document at a path**, as an inquiry. -/
def Checking.validation (t : FileTree) (policy : SuggestionPolicy) (path : String) :
    Inquiry (Except CheckFailure (List Link)) :=
  if t.isFile path then
    .document path fun
      | .error e => .answer (.error (.unreadable e))
      | .ok d => (checkAll t policy d).bind fun r => .answer (r.mapError .search)
  else .answer (.error (.sourceNotFound path))

theorem Session.validate_eq_run (s : Session) (t : FileTree) (path : String) :
    s.validate t path = s.run t (Checking.validation t s.policy path) := by
  unfold validate Checking.validation
  split
  · rw [run]
    have hpolicy : (s.document t path).1.policy = s.policy := rfl
    cases hdocument : s.document t path with
    | mk u r =>
        rw [hdocument] at hpolicy
        dsimp only at hpolicy
        cases r with
        | error e => rfl
        | ok d => simp only [hpolicy, run_bind, run]
  · rfl

end Citations

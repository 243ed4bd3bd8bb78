/-
**Loads that are under way.**

A load is under way from the time it is agreed upon until it comes to an end.  For any key there is
a value, or a load under way, or neither; asking for the key leads from the last to the second, and
the end of the load from the second to one of the others.  A load that has come to an end stays as
it is.

Main definitions:

* `Citations.Cache.IsPending` — whether a load of a key is under way.

Main results:

* `Citations.Cache.Consistent.isPending_join`, `Citations.Cache.Consistent.isPending_finish` — how a
  load comes to be under way, and to an end;
* `Citations.Cache.Consistent.not_isPending_resolve` — nobody who waits for the outcome leaves a
  load under way;
* `Citations.Cache.Consistent.loads_resolve` — a load that has come to an end stays as it is.
-/

import Citations.Proofs.Cache.Consistency

set_option relaxedAutoImplicit false
set_option autoImplicit false

namespace Citations

variable {ε α : Type}

theorem Progress.hasFailed_of_outcome? {p : Progress ε α} (h : p.outcome? = none) :
    p.hasFailed = false := by
  cases p with
  | waiting | running => rfl
  | done r => cases h

namespace Cache

variable {c : Cache ε α} {key k : String} {id : Nat} {l : Load ε α}

/-- Whether a load of a key is under way. -/
def IsPending (c : Cache ε α) (key : String) : Prop :=
  ∃ (id : Nat) (p : Progress ε α), c.loads[id]? = some ⟨key, p⟩ ∧ p.outcome? = none

theorem not_isPending_empty : ¬ (empty : Cache ε α).IsPending key := by
  rintro ⟨id, p, hl, -⟩
  simp [empty] at hl

/-! ### Asking for a key -/

/-- The loads after somebody has asked for a key are those before, and perhaps a new one. -/
theorem loads_join_cases (h : (c.join key).1.loads[id]? = some l) :
    c.loads[id]? = some l ∨ id = (c.join key).2 ∧ l = ⟨key, .waiting⟩ := by
  unfold join at h ⊢
  cases he : c.entryOf? key with
  | some i =>
      rw [he] at h
      exact .inl h
  | none =>
      simp only [he] at h ⊢
      rw [List.getElem?_append] at h
      split at h
      · exact .inl h
      · rw [List.getElem?_singleton] at h
        split at h
        · cases h
          exact .inr ⟨by omega, rfl⟩
        · cases h

theorem IsPending.join (h : c.IsPending k) (key : String) : (c.join key).1.IsPending k := by
  obtain ⟨id, p, hl, hp⟩ := h
  exact ⟨id, p, loads_join_of_loads hl key, hp⟩

/-- Asking for one key starts no load of another. -/
theorem isPending_join_of_ne (h : k ≠ key) : (c.join key).1.IsPending k ↔ c.IsPending k := by
  refine ⟨fun ⟨id, p, hl, hp⟩ => ?_, fun hk => hk.join key⟩
  rcases loads_join_cases hl with hold | ⟨-, hnew⟩
  · exact ⟨id, p, hold, hp⟩
  · cases hnew
    exact absurd rfl h

/-! ### The beginning and the end of a load -/

/-- A load is under way before and after its beginning. -/
theorem isPending_begin (h : c.loads[id]? = some ⟨key, .waiting⟩) :
    (c.begin id).IsPending k ↔ c.IsPending k := by
  constructor
  · rintro ⟨i, p, hl, hp⟩
    rw [begin, loads_note h] at hl
    split at hl
    · cases hl
      exact ⟨id, .waiting, h, rfl⟩
    · exact ⟨i, p, hl, hp⟩
  · rintro ⟨i, p, hl, hp⟩
    by_cases hi : i = id
    · subst hi
      rw [h] at hl
      cases hl
      exact ⟨i, .running, by rw [begin, loads_note h, if_pos rfl], rfl⟩
    · exact ⟨i, p, by rw [begin, loads_note h, if_neg hi, hl], hp⟩

namespace Consistent

/-- A key has a value only when no load of it is under way. -/
theorem not_isPending_of_kept? (hc : c.Consistent) {a : α} (h : c.kept? key = some a) :
    ¬ c.IsPending key := by
  rintro ⟨id, p, hl, hp⟩
  rw [hc.kept?_eq_none hl hp] at h
  cases h

/-- Whoever asks for a key without a value waits for a load that is under way. -/
theorem exists_loads_join (hc : c.Consistent) (h : c.kept? key = none) :
    ∃ p, (c.join key).1.loads[(c.join key).2]? = some ⟨key, p⟩ ∧ p.outcome? = none := by
  obtain ⟨p, hl, hp⟩ := hc.loads_join key
  refine ⟨p, hl, ?_⟩
  cases p with
  | waiting | running => rfl
  | done r =>
      cases r with
      | error x => cases hp
      | ok a =>
          have hkept := (hc.join key).kept?_eq_some_iff.2 ⟨_, hl⟩
          rw [hc.kept?_join, h] at hkept
          cases hkept

theorem isPending_join (hc : c.Consistent) (h : c.kept? key = none) :
    (c.join key).1.IsPending key := by
  obtain ⟨p, hl, hp⟩ := hc.exists_loads_join h
  exact ⟨_, p, hl, hp⟩

/-- The end of a load is the end of the only one of its key. -/
theorem isPending_finish (hc : c.Consistent) {p : Progress ε α}
    (h : c.loads[id]? = some ⟨key, p⟩) (hp : p.hasFailed = false) (r : Except ε α) :
    (c.finish id r).IsPending k ↔ k ≠ key ∧ c.IsPending k := by
  constructor
  · rintro ⟨i, q, hl, hq⟩
    rw [loads_finish h] at hl
    split at hl
    · cases hl
      cases hq
    · rename_i hi
      refine ⟨?_, i, q, hl, hq⟩
      rintro rfl
      exact hi (hc.eq_of_key hl (Progress.hasFailed_of_outcome? hq) h hp)
  · rintro ⟨hk, i, q, hl, hq⟩
    refine ⟨i, q, ?_, hq⟩
    rw [loads_finish h, if_neg, hl]
    rintro rfl
    rw [h] at hl
    cases hl
    exact hk rfl

/-- Nobody who waits for the outcome leaves a load under way. -/
theorem not_isPending_resolve (hc : c.Consistent) (h : ¬ c.IsPending k)
    (load : String → Except ε α) (key : String) : ¬ (c.resolve load key).1.IsPending k := by
  rcases hc.resolve_eq load key with ⟨a, hkept, heq⟩ | ⟨-, heq⟩
  · rw [heq]
    by_cases hk : k = key
    · rw [hk]
      exact (hc.join key).not_isPending_of_kept? (by rw [hc.kept?_join, hkept])
    · rwa [isPending_join_of_ne hk]
  · obtain ⟨p, hl, hp⟩ := hc.loads_join key
    rw [heq, (hc.join key).isPending_finish hl hp]
    rintro ⟨hk, hpending⟩
    exact h ((isPending_join_of_ne hk).1 hpending)

end Consistent

/-! ### Loads that have come to an end -/

/-- The end of a load leaves those as they are that have come to an end before. -/
theorem loads_finish_of_done (hl : c.loads[id]? = some l) {i : Nat} {p : Progress ε α}
    (h : c.loads[i]? = some ⟨key, p⟩) (hp : p.outcome? = none) (hdone : l.progress.outcome? ≠ none)
    (r : Except ε α) : (c.finish i r).loads[id]? = some l := by
  rw [loads_finish h, if_neg, hl]
  rintro rfl
  rw [h] at hl
  cases hl
  exact hdone hp

/-- A load that has come to an end stays as it is when somebody waits for another. -/
theorem Consistent.loads_resolve (hc : c.Consistent) (hl : c.loads[id]? = some l)
    (hdone : l.progress.outcome? ≠ none) (load : String → Except ε α) (key : String) :
    (c.resolve load key).1.loads[id]? = some l := by
  have hjoin := loads_join_of_loads hl key
  rcases hc.resolve_eq load key with ⟨a, -, heq⟩ | ⟨hkept, heq⟩
  · rw [heq]
    exact hjoin
  · obtain ⟨p, hp, hpending⟩ := hc.exists_loads_join hkept
    rw [heq]
    exact loads_finish_of_done hjoin hp hpending hdone _

end Cache

end Citations

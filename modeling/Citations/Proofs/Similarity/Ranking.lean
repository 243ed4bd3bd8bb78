/-
**What a ranking selects.**

A ranking keeps the candidates that score enough, sorts them, and cuts the list off.  What is left
is told by one order: a candidate comes before another one if it scores higher, or scores the same
and is known earlier.  The ranking lists the first candidates in this order, so whatever is left out
comes behind everything that is listed.

Main definitions:

* `Citations.Precedes` — the order of the candidates;
* `Citations.Selects` — **what it is to list the best candidates**;
* `Citations.rankBy` — a ranking by scores of any kind.

Main results:

* `Citations.rankSimilar_eq_rankBy` — candidates are ranked by their similarity;
* `Citations.selects_rankBy` — **a ranking lists the best candidates**;
* `Citations.Selects.head_score` — no candidate scores higher than the first one.
-/

import Citations.Similarity
import Mathlib.Data.List.Nodup
import Mathlib.Order.Lattice
import Mathlib.Order.Nat

set_option relaxedAutoImplicit false
set_option autoImplicit false

namespace Citations

/-! ### Candidates without repetition -/

/-- No candidate is left twice. -/
theorem nodup_distinct (xs : List String) : (distinct xs).Nodup := by
  unfold distinct
  induction hn : xs.length using Nat.strongRecOn generalizing xs with
  | ind n ih =>
      cases xs with
      | nil => simp
      | cons x xs =>
          have hlt : (xs.filter fun y => !y == x).length < n :=
            hn ▸ Nat.lt_succ_of_le (List.length_filter_le ..)
          rw [List.eraseDups_cons, List.nodup_cons]
          exact ⟨by simp, ih _ hlt _ rfl⟩

/-- A list without repetition stays as it is. -/
theorem distinct_of_nodup {xs : List String} (h : xs.Nodup) : distinct xs = xs := by
  induction xs with
  | nil => simp [distinct]
  | cons x xs ih =>
      obtain ⟨hx, hxs⟩ := List.nodup_cons.1 h
      have hfilter : xs.filter (fun y => !y == x) = xs :=
        List.filter_eq_self.2 fun y hy => by simpa using fun he : y = x => hx (he ▸ hy)
      rw [distinct, List.eraseDups_cons, hfilter]
      exact congrArg (x :: ·) (ih hxs)

/-! ### The order of the candidates -/

section

variable {α : Type} [LinearOrder α] {score : String → α} {enough : α → Bool}
  {known chosen : List String} {limit : ℕ}

/-- Whether a candidate comes before another one: it scores higher, or scores the same and is known
earlier. -/
def Precedes (score : String → α) (known : List String) (a b : String) : Prop :=
  score b < score a ∨ score a = score b ∧ [a, b].Sublist known

theorem Precedes.score_le {a b : String} (h : Precedes score known a b) : score b ≤ score a := by
  rcases h with h | ⟨h, -⟩
  · exact h.le
  · exact h.ge

/-- **What it is to list the best candidates**: those that score enough, in order, and no more than
the limit; a candidate is left out only if the list is full and it comes behind all of it. -/
structure Selects (score : String → α) (enough : α → Bool) (known : List String) (limit : ℕ)
    (chosen : List String) : Prop where
  nodup : chosen.Nodup
  known_of_mem : ∀ c ∈ chosen, c ∈ known
  length_le : chosen.length ≤ limit
  enough_of_mem : ∀ c ∈ chosen, enough (score c) = true
  ordered : chosen.Pairwise (Precedes score known)
  left_out : ∀ c ∈ known, enough (score c) = true → c ∉ chosen →
    chosen.length = limit ∧ ∀ x ∈ chosen, Precedes score known x c

/-- **No candidate that scores enough scores higher than the first one**, if any may be listed. -/
theorem Selects.head_score (h : Selects score enough known limit chosen) (hlimit : 0 < limit)
    {c : String} (hc : c ∈ known) (henough : enough (score c) = true) :
    ∃ first, chosen.head? = some first ∧ score c ≤ score first := by
  cases chosen with
  | nil =>
      obtain ⟨hfull, -⟩ := h.left_out c hc henough List.not_mem_nil
      exact absurd hfull (Nat.ne_of_lt hlimit)
  | cons first rest =>
      refine ⟨first, rfl, ?_⟩
      by_cases hmem : c ∈ first :: rest
      · rcases List.mem_cons.1 hmem with rfl | hrest
        · exact le_refl _
        · exact (List.rel_of_pairwise_cons h.ordered hrest).score_le
      · exact ((h.left_out c hc henough hmem).2 first (List.mem_cons_self ..)).score_le

/-! ### Rankings -/

/-- **A ranking by scores of any kind**: the candidates that score enough, best first, equally good
ones in their order, cut off at the limit. -/
def rankBy (score : String → α) (enough : α → Bool) (candidates : List String) (limit : ℕ) :
    List String :=
  (((distinct candidates).filter fun c => enough (score c)).mergeSort
    fun a b => score b ≤ score a).take limit

/-- Of two members of a list, one comes before the other one. -/
theorem pair_sublist_or_pair_sublist {a b : String} {xs : List String} (ha : a ∈ xs) (hb : b ∈ xs)
    (hne : a ≠ b) : [a, b].Sublist xs ∨ [b, a].Sublist xs := by
  obtain ⟨before, after, rfl⟩ := List.append_of_mem ha
  rcases List.mem_append.1 hb with hb | hb
  · exact .inr ((List.singleton_sublist.2 hb).append
      (List.singleton_sublist.2 (List.mem_cons_self ..)))
  · have hb : b ∈ after := (List.mem_cons.1 hb).resolve_left hne.symm
    exact .inl (((List.singleton_sublist.2 hb).cons_cons a).trans (List.sublist_append_right ..))

/-- Without repetition it does so once and for all. -/
theorem not_pair_sublist_swap {a b : String} {xs : List String} (hnodup : xs.Nodup)
    (hab : [a, b].Sublist xs) : ¬ [b, a].Sublist xs := by
  induction xs with
  | nil => simp at hab
  | cons x xs ih =>
      obtain ⟨hx, hxs⟩ := List.nodup_cons.1 hnodup
      rw [List.sublist_cons_iff] at hab ⊢
      grind

/-- **Sorting puts the candidates into their order**: the sort is stable. -/
theorem pairwise_precedes_mergeSort {kept : List String} (score : String → α)
    (hnodup : kept.Nodup) :
    (kept.mergeSort fun a b => score b ≤ score a).Pairwise (Precedes score kept) := by
  have htrans (a b c : String) (hab : decide (score b ≤ score a) = true)
      (hbc : decide (score c ≤ score b) = true) : decide (score c ≤ score a) = true :=
    decide_eq_true ((of_decide_eq_true hbc).trans (of_decide_eq_true hab))
  have htotal (a b : String) :
      (decide (score b ≤ score a) || decide (score a ≤ score b)) = true := by
    simpa using le_total (score b) (score a)
  rw [List.pairwise_iff_forall_sublist]
  intro a b hab
  have hle : score b ≤ score a := of_decide_eq_true
    (List.pairwise_iff_forall_sublist.1 (List.pairwise_mergeSort htrans htotal kept) hab)
  rcases hle.lt_or_eq with hlt | heq
  · exact .inl hlt
  · have hsorted : (kept.mergeSort fun a b => score b ≤ score a).Nodup :=
      List.nodup_mergeSort.2 hnodup
    have hne : a ≠ b := by simpa using hsorted.sublist hab
    have ha : a ∈ kept := List.mem_mergeSort.1 (hab.mem (by simp))
    have hb : b ∈ kept := List.mem_mergeSort.1 (hab.mem (by simp))
    rcases pair_sublist_or_pair_sublist ha hb hne with hkept | hkept
    · exact .inr ⟨heq.symm, hkept⟩
    · -- the other way round, sorting would have kept that order too
      exact absurd (List.pair_sublist_mergeSort htrans htotal (decide_eq_true heq.ge) hkept)
        (not_pair_sublist_swap hsorted hab)

/-- **A ranking lists the best candidates.** -/
theorem selects_rankBy (score : String → α) (enough : α → Bool) (candidates : List String)
    (limit : ℕ) :
    Selects score enough (distinct candidates) limit (rankBy score enough candidates limit) := by
  have hnodup := nodup_distinct candidates
  set kept := (distinct candidates).filter fun c => enough (score c)
  have hkept : kept.Sublist (distinct candidates) := List.filter_sublist
  have hmem {c : String} : c ∈ kept.mergeSort (fun a b => score b ≤ score a) ↔
      c ∈ distinct candidates ∧ enough (score c) = true :=
    List.mem_mergeSort.trans List.mem_filter
  have hordered : (kept.mergeSort fun a b => score b ≤ score a).Pairwise
      (Precedes score (distinct candidates)) :=
    (pairwise_precedes_mergeSort score (hnodup.sublist hkept)).imp
      fun h => h.imp_right fun h => ⟨h.1, h.2.trans hkept⟩
  refine
    { nodup := (List.nodup_mergeSort.2 (hnodup.sublist hkept)).sublist (List.take_sublist ..)
      known_of_mem := fun c hc => (hmem.1 (List.mem_of_mem_take hc)).1
      length_le := List.length_take_le ..
      enough_of_mem := fun c hc => (hmem.1 (List.mem_of_mem_take hc)).2
      ordered := hordered.sublist (List.take_sublist ..)
      left_out := fun c hc henough hout => ?_ }
  -- what is left out stands behind the cut
  have hsplit := List.take_append_drop limit (kept.mergeSort fun a b => score b ≤ score a)
  have hbehind := hmem.2 ⟨hc, henough⟩
  rw [← hsplit] at hbehind hordered
  have hdrop := (List.mem_append.1 hbehind).resolve_left hout
  refine ⟨List.length_take_of_le (Nat.le_of_lt ?_),
    fun x hx => (List.pairwise_append.1 hordered).2.2 x hx c hdrop⟩
  have hpos := List.length_pos_of_mem hdrop
  exact Nat.lt_of_sub_pos (List.length_drop ▸ hpos)

end

/-! ### Rankings by similarity -/

/-- **Candidates are ranked by their similarity.** -/
theorem rankSimilar_eq_rankBy (target : String) (candidates : List String) (threshold : Binary64)
    (limit : ℕ) :
    rankSimilar target candidates threshold limit =
      rankBy (similarity target) threshold.atMost candidates limit := by
  have hlimit : ¬ (limit : Int) < 0 := Int.not_lt.2 (Int.natCast_nonneg limit)
  have hsort : rankedAbove target threshold candidates =
      (((distinct candidates).filter fun c => threshold.atMost (similarity target c)).mergeSort
        fun a b => similarity target b ≤ similarity target a).map
          fun c => (similarity target c, c) := by
    rw [rankedAbove, List.filter_map, List.map_mergeSort]
    · rfl
    · intro a _ b _
      rfl
  rw [rankSimilar, if_neg hlimit, Int.toNat_natCast, hsort, ← List.map_take, List.map_map]
  exact List.map_id _

end Citations

/-
**What the statistics of an extraction say.**

The statistics are taken from the reports and the blocks without looking at how these came about:
differences of two counts and of two lengths, and the quotient of the second difference and a sum.
That no difference is below zero, and that the quotient is below one, rests on one fact: the texts
that were found can be counted block by block, and each block counts at least once.  It needs
nothing of the content ids; texts that share an id share a block.

Main definitions:

* `Citations.Extraction.successes`, `Citations.Extraction.references` — the reports of success, and
  how many of them refer to a block;
* `Citations.Extraction.exactRatio` — the quotient that the ratio of the statistics rounds;
* `Citations.Extraction.Tallies` — **what statistics owe to an extraction**.

Main results:

* `Citations.sum_weight_eq` — texts can be counted block by block;
* `Citations.Extraction.sum_weight_sub` — what counting each block once leaves out;
* `Citations.Extraction.statistics_tally` — **the statistics describe the extraction**.
-/

import Citations.Proofs.Extraction.Blocks
import Mathlib.Algebra.BigOperators.Ring.Finset
import Mathlib.Algebra.Order.BigOperators.Group.List
import Mathlib.Algebra.Order.Field.Basic
import Mathlib.Algebra.Order.Field.Rat
import Mathlib.Tactic.Ring

set_option relaxedAutoImplicit false
set_option autoImplicit false

namespace Citations

/-! ### Counting texts block by block -/

/-- What a content id counts for among blocks, if each of them has a weight. -/
def weightOf (f : ContentBlock → ℕ) (blocks : List ContentBlock) (id : String) : ℕ :=
  ((blocks.find? (·.id = id)).map f).getD 0

theorem weightOf_of_notMem {f : ContentBlock → ℕ} {blocks : List ContentBlock} {id : String}
    (h : id ∉ blocks.map ContentBlock.id) : weightOf f blocks id = 0 := by
  have hnone : blocks.find? (·.id = id) = none := by
    refine List.find?_eq_none.2 fun b hb hid => h ?_
    rw [← of_decide_eq_true hid]
    exact List.mem_map_of_mem hb
  rw [weightOf, hnone]
  rfl

/-- With one block for each id, the weight of an id is the sum over the blocks that have it. -/
theorem sum_map_ite_eq_weightOf (f : ContentBlock → ℕ) {blocks : List ContentBlock}
    (h : (blocks.map ContentBlock.id).Nodup) (id : String) :
    (blocks.map fun b => if id = b.id then f b else 0).sum = weightOf f blocks id := by
  induction blocks with
  | nil => rfl
  | cons b blocks ih =>
      rw [List.map_cons, List.nodup_cons] at h
      rw [List.map_cons, List.sum_cons, ih h.2]
      by_cases hid : id = b.id
      · subst hid
        rw [weightOf_of_notMem h.1]
        simp [weightOf]
      · simp [weightOf, hid, Ne.symm hid]

/-- **Texts can be counted block by block**: each block counts for all texts that have its id. -/
theorem sum_weight_eq (f : ContentBlock → ℕ) {blocks : List ContentBlock}
    (h : (blocks.map ContentBlock.id).Nodup) (texts : List String) :
    (texts.map fun s => weightOf f blocks (contentId s)).sum =
      (blocks.map fun b => texts.countP (contentId · = b.id) * f b).sum := by
  induction texts with
  | nil => simp
  | cons s texts ih =>
      have hstep (b : ContentBlock) : (s :: texts).countP (contentId · = b.id) * f b =
          (if contentId s = b.id then f b else 0) + texts.countP (contentId · = b.id) * f b := by
        by_cases hid : contentId s = b.id
        · rw [List.countP_cons_of_pos (by simpa using hid), if_pos hid, Nat.add_mul, Nat.one_mul,
            Nat.add_comm]
        · rw [List.countP_cons_of_neg (by simpa using hid), if_neg hid, Nat.zero_add]
      simp only [hstep]
      rw [List.map_cons, List.sum_cons, ih, List.sum_map_add, sum_map_ite_eq_weightOf f h]

namespace Extraction

/-! ### References -/

/-- The reports of links that were followed with success. -/
def successes (e : Extraction) : List Report := e.reports.filter (·.finding.status = .success)

/-- How many reports of success refer to a block. -/
def references (e : Extraction) (b : ContentBlock) : ℕ :=
  e.successes.countP (·.contentId? = some b.id)

/-- Each report of success found one text. -/
theorem map_text?_successes (e : Extraction) :
    e.successes.map (·.finding.text?) = e.texts.map some := by
  unfold successes texts
  induction e.reports with
  | nil => rfl
  | cons r rs ih =>
      have hr := r.finding.isSome_text?_iff
      cases htext : r.finding.text? with
      | none =>
          have hstatus : r.finding.status ≠ .success := fun h => by simpa [htext] using hr.2 h
          simp [htext, hstatus, ih]
      | some text =>
          have hstatus : r.finding.status = .success := hr.1 (by rw [htext]; rfl)
          simp [htext, hstatus, ih]

theorem length_successes (e : Extraction) : e.successes.length = e.texts.length := by
  simpa using congrArg List.length e.map_text?_successes

theorem references_eq (e : Extraction) (b : ContentBlock) :
    e.references b = e.texts.countP (contentId · = b.id) := by
  have h := congrArg (List.countP fun text? => text?.map contentId = some b.id)
    e.map_text?_successes
  rw [List.countP_map, List.countP_map] at h
  refine Eq.trans h ?_
  simp [Function.comp_def]

/-- Every block is referred to. -/
theorem one_le_references {e : Extraction} {b : ContentBlock} (h : b ∈ e.blocks) :
    1 ≤ e.references b := by
  obtain ⟨text, htext, rfl⟩ := mem_collect h
  rw [references_eq]
  exact List.countP_pos_iff.2 ⟨text, htext, by simp⟩

/-- **What counting each block once leaves out** of a count of all texts. -/
theorem sum_weight_sub (e : Extraction) (f : ContentBlock → ℕ) :
    ((e.texts.map fun s => weightOf f e.blocks (contentId s)).sum : ℤ) - (e.blocks.map f).sum =
      (e.blocks.map fun b => ((e.references b : ℤ) - 1) * f b).sum := by
  have hnodup : (e.blocks.map ContentBlock.id).Nodup := nodup_collect e.texts
  rw [sum_weight_eq f hnodup, sub_eq_iff_eq_add, Nat.cast_list_sum,
    Nat.cast_list_sum, List.map_map, List.map_map, ← List.sum_map_add]
  refine congrArg List.sum (List.map_congr_left fun b _ => ?_)
  simp only [Function.comp_apply, ← references_eq, Nat.cast_mul]
  ring

theorem sum_references_sub_nonneg (e : Extraction) (f : ContentBlock → ℕ) :
    0 ≤ (e.blocks.map fun b => ((e.references b : ℤ) - 1) * f b).sum := by
  refine List.sum_nonneg fun x hx => ?_
  obtain ⟨b, hb, rfl⟩ := List.mem_map.1 hx
  have hone := one_le_references hb
  exact mul_nonneg (by omega) (Int.natCast_nonneg _)

/-! ### The statistics -/

theorem totalLength_eq (e : Extraction) :
    e.totalLength = (e.blocks.map ContentBlock.length).sum := List.sum_eq_foldr.symm

theorem citedLength_eq (e : Extraction) :
    e.citedLength =
      (e.texts.map fun s => weightOf ContentBlock.length e.blocks (contentId s)).sum :=
  List.sum_eq_foldr.symm

theorem saved_eq_sum (e : Extraction) : e.statistics.saved =
    (e.blocks.map fun b => ((e.references b : ℤ) - 1) * b.length).sum := by
  rw [← e.sum_weight_sub ContentBlock.length, ← citedLength_eq, ← totalLength_eq]
  rfl

theorem duplicates_eq_sum (e : Extraction) : e.statistics.duplicates =
    (e.blocks.map fun b => (e.references b : ℤ) - 1).sum := by
  have hone (s : String) (hs : s ∈ e.texts) :
      weightOf (fun _ => 1) e.blocks (contentId s) = 1 := by
    obtain ⟨b, hb, hid⟩ := List.mem_map.1 (mem_collect_ids.2 (List.mem_map_of_mem hs))
    have hfound : (e.blocks.find? (·.id = contentId s)).isSome := by
      rw [List.find?_isSome]
      exact ⟨b, hb, by simpa using hid⟩
    obtain ⟨c, hc⟩ := Option.isSome_iff_exists.1 hfound
    rw [weightOf, hc]
    rfl
  have h := e.sum_weight_sub fun _ => 1
  rw [List.map_congr_left hone] at h
  simpa [statistics] using h

/-- All blocks are empty if nothing is kept. -/
theorem citedLength_eq_zero {e : Extraction} (h : e.totalLength = 0) : e.citedLength = 0 := by
  rw [totalLength_eq, List.sum_eq_zero_iff] at h
  have hnodup : (e.blocks.map ContentBlock.id).Nodup := nodup_collect e.texts
  rw [citedLength_eq, sum_weight_eq _ hnodup, List.sum_eq_zero_iff]
  intro x hx
  obtain ⟨b, hb, rfl⟩ := List.mem_map.1 hx
  rw [h _ (List.mem_map_of_mem hb), Nat.mul_zero]

/-- Without duplicates nothing is saved: each block is referred to once. -/
theorem saved_eq_zero_of_duplicates {e : Extraction} (h : e.statistics.duplicates = 0) :
    e.statistics.saved = 0 := by
  have hnonneg : ∀ x ∈ e.blocks.map fun b => (e.references b : ℤ) - 1, 0 ≤ x := by
    intro x hx
    obtain ⟨b, hb, rfl⟩ := List.mem_map.1 hx
    have hone := one_le_references hb
    omega
  rw [duplicates_eq_sum] at h
  rw [saved_eq_sum]
  refine List.sum_eq_zero fun x hx => ?_
  obtain ⟨b, hb, rfl⟩ := List.mem_map.1 hx
  have honce : (e.references b : ℤ) - 1 = 0 :=
    List.all_zero_of_le_zero_le_of_sum_eq_zero hnonneg h (List.mem_map_of_mem hb)
  rw [honce, zero_mul]

/-- The quotient that the ratio of the statistics rounds: of what was saved and what would be kept
without sharing. -/
def exactRatio (e : Extraction) : ℚ :=
  if e.totalLength + e.statistics.saved = 0 then 0
  else e.statistics.saved / (e.totalLength + e.statistics.saved)

/-- **What statistics owe to an extraction**, given the exact ratio. -/
structure Tallies (e : Extraction) (s : Statistics) (ratio : ℚ) : Prop where
  unique_eq : s.uniqueContent = e.blocks.length
  /-- Duplicates are the reports of success beyond the first one of each block. -/
  duplicates_eq : s.duplicates = (e.successes.length : ℤ) - s.uniqueContent
  duplicates_nonneg : 0 ≤ s.duplicates
  /-- A block saves its length for each reference but one. -/
  saved_eq : s.saved = (e.blocks.map fun b => ((e.references b : ℤ) - 1) * b.length).sum
  saved_nonneg : 0 ≤ s.saved
  /-- The ratio of the statistics is the exact one, rounded; nothing is divided by zero. -/
  ratio_eq : (e.totalLength + s.saved = 0 ∧ ratio = 0 ∧ s.ratio = .finite false 0) ∨
    ∃ den : ℕ, den ≠ 0 ∧ (den : ℤ) = e.totalLength + s.saved ∧ ratio = s.saved / den ∧
      s.ratio = .ofQuotient s.saved den
  ratio_nonneg : 0 ≤ ratio
  ratio_lt_one : ratio < 1
  /-- The ratio is zero exactly if nothing is saved. -/
  ratio_eq_zero_iff : ratio = 0 ↔ s.saved = 0
  saved_eq_zero : s.duplicates = 0 → s.saved = 0

/-- All that is cited is what is kept and what is saved. -/
theorem citedLength_eq_add (e : Extraction) :
    (e.citedLength : ℤ) = e.totalLength + e.statistics.saved := (add_sub_cancel _ _).symm

theorem exactRatio_eq (e : Extraction) :
    e.exactRatio = e.statistics.saved / (e.citedLength : ℚ) := by
  have hcited : (e.totalLength : ℚ) + e.statistics.saved = e.citedLength := by
    exact_mod_cast e.citedLength_eq_add.symm
  rw [exactRatio, hcited, ← citedLength_eq_add]
  split
  · rename_i hzero
    rw [Int.natCast_eq_zero] at hzero
    simp [hzero]
  · rfl

/-- **The statistics describe the extraction**, and so does the ratio in exact arithmetic. -/
theorem statistics_tally (e : Extraction) : e.Tallies e.statistics e.exactRatio := by
  have hsaved : 0 ≤ e.statistics.saved := by
    rw [saved_eq_sum]
    exact e.sum_references_sub_nonneg ContentBlock.length
  have hcited := e.citedLength_eq_add
  refine ⟨rfl, ?duplicates, ?nonneg, e.saved_eq_sum, hsaved, ?ratio, ?ratioNonneg, ?ratioLt,
    ?ratioZero, saved_eq_zero_of_duplicates⟩
  case duplicates =>
    rw [length_successes]
    rfl
  case nonneg =>
    rw [duplicates_eq_sum]
    simpa using e.sum_references_sub_nonneg fun _ => 1
  case ratio =>
    by_cases hzero : e.citedLength = 0
    · refine .inl ⟨by omega, ?_, if_pos hzero⟩
      rw [exactRatio_eq, hzero, Nat.cast_zero, div_zero]
    · exact .inr ⟨e.citedLength, hzero, hcited, e.exactRatio_eq, if_neg hzero⟩
  case ratioNonneg =>
    rw [exactRatio_eq]
    exact div_nonneg (Int.cast_nonneg hsaved) (Nat.cast_nonneg _)
  case ratioLt =>
    rw [exactRatio_eq]
    by_cases hzero : e.citedLength = 0
    · rw [hzero, Nat.cast_zero, div_zero]
      exact zero_lt_one
    · -- something is kept of what is cited, so not all of it is saved
      have hkept : e.totalLength ≠ 0 := fun h => hzero (citedLength_eq_zero h)
      have hlt : e.statistics.saved < (e.citedLength : ℤ) := by omega
      rw [div_lt_one (Nat.cast_pos.2 (Nat.pos_of_ne_zero hzero))]
      exact_mod_cast hlt
  case ratioZero =>
    rw [exactRatio_eq, div_eq_zero_iff, Int.cast_eq_zero, Nat.cast_eq_zero]
    refine or_iff_left_of_imp fun hzero => ?_
    omega

end Extraction

end Citations

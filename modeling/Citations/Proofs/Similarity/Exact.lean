/-
**Similarity in exact arithmetic.**

A similarity is a quotient, rounded to double precision.  The quotient itself is the number of
matched characters in proportion to both lengths, so it is at most one, and it is one exactly if all
characters of both texts are matched: then the texts are equal but for case.  Rounding keeps this as
long as the texts are short of 2 to the power 54 characters together; a quotient just below one that
has a larger denominator may be rounded to one.

Main definitions:

* `Citations.exactSimilarity` — the similarity before it is rounded.

Main results:

* `Citations.Binary64.ofRatio_self`, `Citations.Binary64.ofRatio_le_one`,
  `Citations.Binary64.ofRatio_lt_one` — how quotients up to one are rounded;
* `Citations.similarity_eq` — a similarity is the exact one, rounded;
* `Citations.exactSimilarity_eq_one_iff` — **a similarity is one exactly for texts that are equal
  but for case**;
* `Citations.similarity_of_lower_eq`, `Citations.lower_eq_of_similarity` — the same of rounded ones.
-/

import Citations.Proofs.Similarity.Diagonal
import Mathlib.Algebra.Order.Field.Basic
import Mathlib.Algebra.Order.Field.Rat
import Mathlib.Tactic.Ring

set_option relaxedAutoImplicit false
set_option autoImplicit false

namespace Citations

open Text

/-! ### Rounding -/

namespace Binary64

/-- Rounding does not go beyond a natural number. -/
theorem roundDiv_le {num den n : ℕ} (hden : 0 < den) (h : num ≤ den * n) :
    roundDiv num den ≤ n := by
  have hsplit := Nat.div_add_mod num den
  have hq : num / den ≤ n := Nat.div_le_of_le_mul h
  rw [roundDiv]
  split
  · rename_i hup
    have hrest : 0 < num % den := by omega
    -- a rest is left, so the quotient is below the bound
    have hlt : num / den < n := by
      refine lt_of_le_of_ne hq fun heq => ?_
      rw [heq] at hsplit
      omega
    exact hlt
  · exact hq

/-- What is rounded to a natural number or beyond is at most one half below it. -/
theorem two_mul_mul_le_of_le_roundDiv {num den n : ℕ} (h : n ≤ roundDiv num den) :
    2 * (n * den) ≤ 2 * num + den := by
  have hsplit := Nat.div_add_mod num den
  rw [Nat.mul_comm] at hsplit
  rw [roundDiv] at h
  split at h
  · rename_i hup
    have hmul := Nat.mul_le_mul_right den h
    rw [Nat.succ_mul] at hmul
    omega
  · have hmul := Nat.mul_le_mul_right den h
    omega

theorem one_eq_two_pow : one = 2 ^ scale := by
  unfold one
  generalize scale = s
  rfl

/-- The step to which a quotient is rounded, as a power of two. -/
def stepExponent (num den : ℕ) : ℕ := Nat.log2 (num * one / den) - 52

theorem ofRatio_eq (num den : ℕ) :
    ofRatio num den =
      roundDiv (num * one) (den * 2 ^ stepExponent num den) * 2 ^ stepExponent num den := by
  unfold ofRatio stepExponent
  generalize Nat.log2 (num * one / den) - 52 = e
  rfl

/-- One is a multiple of every step that is no larger. -/
theorem one_eq_mul {e : ℕ} (h : e ≤ scale) : one = 2 ^ e * 2 ^ (scale - e) := by
  rw [one_eq_two_pow, ← Nat.pow_add, Nat.add_sub_cancel' h]

theorem log2_lt_of_lt {n k : ℕ} (hk : 0 < k) (h : n < 2 ^ k) : Nat.log2 n < k := by
  by_cases hn : n = 0
  · rw [hn, Nat.log2_zero]
    exact hk
  · exact (Nat.log2_lt hn).2 h

theorem stepExponent_le {num den : ℕ} (h : num ≤ den) : stepExponent num den ≤ scale := by
  have hle : num * one / den ≤ 2 ^ scale :=
    Nat.div_le_of_le_mul (one_eq_two_pow ▸ Nat.mul_le_mul_right one h)
  have hlog := log2_lt_of_lt (Nat.succ_pos scale)
    (hle.trans_lt (Nat.pow_lt_pow_right Nat.one_lt_two (Nat.lt_succ_self scale)))
  exact (Nat.sub_le ..).trans (Nat.le_of_lt_succ hlog)

theorem stepExponent_lt {num den : ℕ} (h : num < den) : stepExponent num den + 53 ≤ scale := by
  have hlt : num * one / den < 2 ^ scale := by
    rw [Nat.div_lt_iff_lt_mul (Nat.zero_lt_of_lt h), one_eq_two_pow, Nat.mul_comm]
    exact Nat.mul_lt_mul_of_pos_left h (Nat.two_pow_pos scale)
  have hscale : 53 ≤ scale := by decide
  have hlog := log2_lt_of_lt (Nat.lt_of_lt_of_le (by decide) hscale) hlt
  rw [stepExponent]
  omega

/-- **A quotient up to one is not rounded beyond it.** -/
theorem ofRatio_le_one {num den : ℕ} (h : num ≤ den) (hden : 0 < den) :
    ofRatio num den ≤ one := by
  have hstep := stepExponent_le h
  rw [ofRatio_eq]
  generalize stepExponent num den = e at *
  rw [one_eq_mul hstep, Nat.mul_comm (2 ^ e) (2 ^ (scale - e))]
  refine Nat.mul_le_mul_right _ (roundDiv_le (Nat.mul_pos hden (Nat.two_pow_pos e)) ?_)
  calc num * (2 ^ (scale - e) * 2 ^ e) ≤ den * (2 ^ (scale - e) * 2 ^ e) :=
        Nat.mul_le_mul_right _ h
    _ = den * 2 ^ e * 2 ^ (scale - e) := by ring

theorem ofRatio_zero {den : ℕ} (hden : 0 < den) : ofRatio 0 den = 0 := by
  have hpos := Nat.mul_pos hden (Nat.two_pow_pos (stepExponent 0 den))
  rw [ofRatio_eq, Nat.zero_mul, Nat.le_zero.1 (roundDiv_le hpos (Nat.zero_le _)), Nat.zero_mul]

theorem ofRatio_self {n : ℕ} (hn : 0 < n) : ofRatio n n = one := by
  have hstep := stepExponent_le (Nat.le_refl n)
  rw [ofRatio_eq]
  generalize stepExponent n n = e at *
  have hpos : 0 < n * 2 ^ e := Nat.mul_pos hn (Nat.two_pow_pos e)
  have hexact : n * one = n * 2 ^ e * 2 ^ (scale - e) := by
    rw [one_eq_mul hstep, Nat.mul_assoc]
  rw [roundDiv_of_dvd hpos ⟨_, hexact⟩, hexact, Nat.mul_div_cancel_left _ hpos, Nat.mul_comm,
    ← one_eq_mul hstep]

/-- **A quotient below one stays below it**, unless its denominator is very large. -/
theorem ofRatio_lt_one {num den : ℕ} (h : num < den) (hden : den < 2 ^ 54) :
    ofRatio num den < one := by
  have hstep := stepExponent_lt h
  rw [ofRatio_eq]
  generalize stepExponent num den = e at *
  by_contra hone
  have hle : e ≤ scale := by omega
  rw [Nat.not_lt, one_eq_mul hle, Nat.mul_comm (2 ^ e) (2 ^ (scale - e))] at hone
  have hround := two_mul_mul_le_of_le_roundDiv (Nat.le_of_mul_le_mul_right hone (Nat.two_pow_pos e))
  -- so one half of a step is no less than what the quotient lacks
  have hcancel : 2 * (2 ^ (scale - e) * den) ≤ 2 * (num * 2 ^ (scale - e)) + den := by
    refine Nat.le_of_mul_le_mul_right ?_ (Nat.two_pow_pos e)
    calc 2 * (2 ^ (scale - e) * den) * 2 ^ e = 2 * (2 ^ (scale - e) * (den * 2 ^ e)) := by ring
      _ ≤ _ := hround
      _ = (2 * (num * 2 ^ (scale - e)) + den) * 2 ^ e := by ring
  have hbig : 2 ^ 53 ≤ 2 ^ (scale - e) := Nat.pow_le_pow_right Nat.two_pos (by omega)
  have hlack : 2 ^ (scale - e) * (num + 1) ≤ 2 ^ (scale - e) * den := Nat.mul_le_mul_left _ h
  rw [Nat.mul_succ, Nat.mul_comm _ num] at hlack
  omega

end Binary64

/-! ### Matched characters of equal texts -/

namespace Similarity

theorem two_mul_matched_le (as bs : List Char) : 2 * matched as bs ≤ as.length + bs.length := by
  have hleft := matched_le_left as bs
  have hright := matched_le_right as bs
  omega

/-- **All characters of both texts are matched exactly if the texts are equal.** -/
theorem two_mul_matched_eq_iff (as bs : List Char) :
    2 * matched as bs = as.length + bs.length ↔ as = bs := by
  constructor
  · intro h
    have hleft := matched_le_left as bs
    have hright := matched_le_right as bs
    exact eq_of_matched (by omega) (by omega)
  · rintro rfl
    rw [matched_self, Nat.two_mul]

end Similarity

/-! ### Similarity -/

/-- The similarity of two texts without regard to case, before it is rounded: twice the number of
matched characters in proportion to both lengths. -/
def exactSimilarity (a b : String) : ℚ :=
  if a = b then 1
  else if a = "" ∨ b = "" then 0
  else 2 * Similarity.matched (lower a.toList) (lower b.toList) /
    ((lower a.toList).length + (lower b.toList).length)

section

variable {a b : String}

theorem length_lower_pos (ha : a ≠ "") : 0 < (lower a.toList).length := by
  refine List.length_pos_iff.2 fun h => ha ?_
  exact String.toList_eq_nil_iff.1 ((lower_eq_nil_iff a.toList).1 h)

theorem exactSimilarity_eq (ha : a ≠ "") (hb : b ≠ "") :
    exactSimilarity a b =
      (2 * Similarity.matched (lower a.toList) (lower b.toList) : ℕ) /
        ((lower a.toList).length + (lower b.toList).length : ℕ) := by
  have hpos := length_lower_pos ha
  unfold exactSimilarity
  split
  · rename_i heq
    rw [← heq, (Similarity.two_mul_matched_eq_iff _ _).2 rfl, div_self]
    exact Nat.cast_ne_zero.2 (by omega)
  · rw [if_neg (not_or.2 ⟨ha, hb⟩), Nat.cast_mul, Nat.cast_add, Nat.cast_two]

theorem similarity_eq (ha : a ≠ "") (hb : b ≠ "") :
    similarity a b =
      Binary64.ofRatio (2 * Similarity.matched (lower a.toList) (lower b.toList))
        ((lower a.toList).length + (lower b.toList).length) := by
  have hpos := length_lower_pos ha
  unfold similarity
  split
  · rename_i heq
    rw [← heq, (Similarity.two_mul_matched_eq_iff _ _).2 rfl, Binary64.ofRatio_self (by omega)]
  · rw [if_neg (not_or.2 ⟨ha, hb⟩), Similarity.ratio, if_neg (by omega)]

/-- **A similarity is the exact one, rounded.** -/
theorem exists_quotient (a b : String) :
    ∃ num den : ℕ, num ≤ den ∧ 0 < den ∧ exactSimilarity a b = num / den ∧
      similarity a b = Binary64.ofRatio num den := by
  by_cases heq : a = b
  · refine ⟨1, 1, Nat.le_refl 1, Nat.one_pos, ?_, ?_⟩
    · rw [exactSimilarity, if_pos heq, Nat.cast_one, div_one]
    · rw [similarity, if_pos heq, Binary64.ofRatio_self Nat.one_pos]
  by_cases hempty : a = "" ∨ b = ""
  · refine ⟨0, 1, Nat.zero_le 1, Nat.one_pos, ?_, ?_⟩
    · rw [exactSimilarity, if_neg heq, if_pos hempty, Nat.cast_zero, zero_div]
    · rw [similarity, if_neg heq, if_pos hempty, Binary64.ofRatio_zero Nat.one_pos]
  · obtain ⟨ha, hb⟩ := not_or.1 hempty
    have hpos := length_lower_pos ha
    exact ⟨_, _, Similarity.two_mul_matched_le _ _, by omega, exactSimilarity_eq ha hb,
      similarity_eq ha hb⟩

theorem exactSimilarity_nonneg (a b : String) : 0 ≤ exactSimilarity a b := by
  obtain ⟨num, den, -, -, h, -⟩ := exists_quotient a b
  rw [h]
  exact div_nonneg (Nat.cast_nonneg num) (Nat.cast_nonneg den)

theorem exactSimilarity_le_one (a b : String) : exactSimilarity a b ≤ 1 := by
  obtain ⟨num, den, hle, hpos, h, -⟩ := exists_quotient a b
  rw [h, div_le_one (Nat.cast_pos.2 hpos)]
  exact Nat.cast_le.2 hle

/-- **The similarity of a text that is not empty is one exactly to the texts that are equal but for
case.** -/
theorem exactSimilarity_eq_one_iff (ha : a ≠ "") :
    exactSimilarity a b = 1 ↔ lower a.toList = lower b.toList := by
  have hpos := length_lower_pos ha
  by_cases hb : b = ""
  · subst hb
    have hlower : lower a.toList ≠ [] := List.ne_nil_of_length_pos hpos
    rw [exactSimilarity, if_neg ha, if_pos (.inr rfl)]
    simp [hlower]
  · rw [exactSimilarity_eq ha hb, div_eq_one_iff_eq (Nat.cast_ne_zero.2 (by omega)), Nat.cast_inj]
    exact Similarity.two_mul_matched_eq_iff _ _

/-! ### Rounded similarity -/

theorem similarity_le_one (a b : String) : similarity a b ≤ Binary64.one := by
  obtain ⟨num, den, hle, hpos, -, h⟩ := exists_quotient a b
  rw [h]
  exact Binary64.ofRatio_le_one hle hpos

/-- Texts that are equal but for case have similarity one. -/
theorem similarity_of_lower_eq (ha : a ≠ "") (hb : b ≠ "")
    (h : lower a.toList = lower b.toList) : similarity a b = Binary64.one := by
  have hpos := length_lower_pos ha
  rw [similarity_eq ha hb, (Similarity.two_mul_matched_eq_iff _ _).2 h,
    Binary64.ofRatio_self (by omega)]

/-- Texts of similarity one that are not too long are equal but for case. -/
theorem lower_eq_of_similarity (ha : a ≠ "") (h : similarity a b = Binary64.one)
    (hlength : (lower a.toList).length + (lower b.toList).length < 2 ^ 54) :
    lower a.toList = lower b.toList := by
  have hb : b ≠ "" := by
    rintro rfl
    rw [similarity, if_neg ha, if_pos (.inr rfl)] at h
    exact absurd h.symm (Binary64.one_eq_two_pow ▸ (Nat.two_pow_pos _).ne')
  rw [similarity_eq ha hb] at h
  refine (Similarity.two_mul_matched_eq_iff _ _).1 ?_
  refine (Similarity.two_mul_matched_le _ _).eq_or_lt.resolve_right fun hlt => ?_
  exact absurd h (Binary64.ofRatio_lt_one hlt hlength).ne

end

end Citations

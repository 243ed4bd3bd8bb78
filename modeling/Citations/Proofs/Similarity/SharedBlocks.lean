/-
**The blocks that two texts share.**

The longest block is looked for row by row: the entry for two places is the number of characters
before them that agree and may start a block.  So each entry stands for a block that both texts
hold, and growing a block keeps it one.  Cut at such a block, each text falls into the parts that
are matched next, so no character is matched twice; and where all characters of both texts are
matched, the texts are put together from the same blocks in the same order.

Main definitions:

* `Citations.Similarity.Block.Shared` — whether both texts hold a block;
* `Citations.Similarity.EndsShared` — whether two texts agree before two places;
* `Citations.Similarity.RowShared` — what holds of a row and of the longest block so far.

Main results:

* `Citations.Similarity.longestFrom_induction` — what each row keeps is true in the end;
* `Citations.Similarity.RowShared.step` — each row keeps what is shared;
* `Citations.Similarity.shared_longest` — the longest block is shared;
* `Citations.Similarity.matched_le_left`, `Citations.Similarity.matched_le_right` — **no character
  is matched twice**;
* `Citations.Similarity.eq_of_matched` — **texts that are matched as a whole are equal**.
-/

import Citations.Similarity
import Mathlib.Data.List.Basic
import Mathlib.Data.List.Infix

set_option relaxedAutoImplicit false
set_option autoImplicit false

namespace Citations.Similarity

variable {as bs : List Char} {rare : Char → Bool}

/-! ### Shared blocks -/

/-- Whether both texts hold a block: each is cut into a part before it, the block and a part behind
it. -/
def Block.Shared (as bs : List Char) (b : Block) : Prop :=
  ∃ w before before' after after', as = before ++ (w ++ after) ∧ bs = before' ++ (w ++ after') ∧
    before.length = b.left ∧ before'.length = b.right ∧ w.length = b.size

/-- Whether the `k` characters before place `i` of one text are those before place `j` of the
other. -/
def EndsShared (as bs : List Char) (i j k : Nat) : Prop :=
  ∃ w, w.length = k ∧ w <:+ as.take i ∧ w <:+ bs.take j

theorem endsShared_zero (as bs : List Char) (i j : Nat) : EndsShared as bs i j 0 :=
  ⟨[], rfl, List.nil_suffix, List.nil_suffix⟩

theorem EndsShared.succ {i j k : Nat} {a : Char} (h : EndsShared as bs i j k)
    (ha : as[i]? = some a) (hb : bs[j]? = some a) : EndsShared as bs (i + 1) (j + 1) (k + 1) := by
  obtain ⟨w, hw, ⟨before, has⟩, before', hbs⟩ := h
  refine ⟨w ++ [a], by simp [hw], ⟨before, ?_⟩, before', ?_⟩
  · rw [List.take_add_one, ha, ← has, List.append_assoc, Option.toList_some]
  · rw [List.take_add_one, hb, ← hbs, List.append_assoc, Option.toList_some]

/-- Characters that agree before two places are a shared block. -/
theorem EndsShared.shared {i j k : Nat} (h : EndsShared as bs i j k) (hi : i ≤ as.length)
    (hj : j ≤ bs.length) : Block.Shared as bs ⟨i - k, j - k, k⟩ := by
  obtain ⟨w, hw, ⟨before, has⟩, before', hbs⟩ := h
  have hlength := congrArg List.length has
  have hlength' := congrArg List.length hbs
  rw [List.length_append, List.length_take_of_le hi] at hlength
  rw [List.length_append, List.length_take_of_le hj] at hlength'
  refine ⟨w, before, before', as.drop i, bs.drop j, ?_, ?_, by dsimp only; omega,
    by dsimp only; omega, hw⟩
  · rw [← List.append_assoc, has, List.take_append_drop]
  · rw [← List.append_assoc, hbs, List.take_append_drop]

/-! ### Rows -/

/-- What stands in the next row: one more than before, where the characters agree. -/
theorem getElem?_nextRow {a : Char} {row : List Nat} {j k : Nat}
    (h : (nextRow rare a bs row)[j]? = some k) :
    ∃ b n, bs[j]? = some b ∧ (0 :: row)[j]? = some n ∧
      k = if a = b ∧ rare b then n + 1 else 0 := by
  obtain ⟨b, n, hb, hn, hk⟩ := List.getElem?_zipWith_eq_some.1 h
  exact ⟨b, n, hb, hn, hk.symm⟩

/-- The longest block is the one so far, or an entry of the row stands for it. -/
theorem improve_cases (i j : Nat) (row : List Nat) (best : Block) :
    improve i j row best = best ∨
      ∃ n k, row[n]? = some k ∧ improve i j row best = ⟨i + 1 - k, j + n + 1 - k, k⟩ := by
  induction row generalizing j best with
  | nil => exact .inl rfl
  | cons k row ih =>
      rcases ih (j + 1) (if best.size < k then ⟨i + 1 - k, j + 1 - k, k⟩ else best) with
        h | ⟨n, k', hk', h⟩
      · by_cases hlt : best.size < k
        · exact .inr ⟨0, k, rfl, by rw [improve, h, if_pos hlt]⟩
        · exact .inl (by rw [improve, h, if_neg hlt])
      · refine .inr ⟨n + 1, k', by simpa using hk', ?_⟩
        rw [improve, h]
        congr 2
        omega

/-- **What each row keeps is true in the end.** -/
theorem longestFrom_induction {P : Nat → List Nat → Block → Prop}
    (hstep : ∀ i a row best, as[i]? = some a → P i row best →
      P (i + 1) (nextRow rare a bs row) (improve i 0 (nextRow rare a bs row) best))
    {i : Nat} {row : List Nat} {best : Block} (hi : i ≤ as.length) (h : P i row best) :
    ∃ row', P as.length row' (longestFrom rare bs i (as.drop i) row best) := by
  induction hrest : as.drop i generalizing i row best with
  | nil =>
      have hlength : i = as.length := Nat.le_antisymm hi (List.drop_eq_nil_iff.1 hrest)
      exact ⟨row, hlength ▸ h⟩
  | cons a rest ih =>
      have ha : as[i]? = some a := by
        rw [← List.head?_drop, hrest, List.head?_cons]
      have hlt : i < as.length := (List.getElem?_eq_some_iff.1 ha).1
      have hdrop : as.drop (i + 1) = rest := by
        rw [← List.tail_drop, hrest, List.tail_cons]
      exact ih hlt (hstep i a row best ha h) hdrop

/-! ### The longest block -/

theorem exists_commonStart (as bs : List Char) :
    ∃ common rest rest', as = common ++ rest ∧ bs = common ++ rest' ∧
      common.length = commonStart as bs := by
  fun_induction commonStart as bs with
  | case1 as b bs ih =>
      obtain ⟨common, rest, rest', rfl, rfl, hlength⟩ := ih
      exact ⟨b :: common, rest, rest', rfl, rfl, congrArg (· + 1) hlength⟩
  | case2 a as b bs hab => exact ⟨[], _, _, rfl, rfl, rfl⟩
  | case3 as bs h => exact ⟨[], _, _, rfl, rfl, rfl⟩

/-- What is behind a part and a block. -/
theorem drop_behind_block (before w after : List Char) :
    (before ++ (w ++ after)).drop (before.length + w.length) = after := by
  rw [← List.append_assoc, ← List.length_append, List.drop_left]

/-- **A block grows by what the parts around it have in common.** -/
theorem grow_append (before before' w after after' : List Char) :
    grow (before ++ (w ++ after)) (before' ++ (w ++ after'))
        ⟨before.length, before'.length, w.length⟩ =
      ⟨before.length - commonStart before.reverse before'.reverse,
        before'.length - commonStart before.reverse before'.reverse,
        commonStart before.reverse before'.reverse + w.length + commonStart after after'⟩ := by
  simp only [grow, drop_behind_block, List.take_left]

/-- Growing a block keeps it shared. -/
theorem Block.Shared.grow {b : Block} (h : b.Shared as bs) : (grow as bs b).Shared as bs := by
  obtain ⟨left, right, size⟩ := b
  obtain ⟨w, before, before', after, after', rfl, rfl, rfl, rfl, rfl⟩ := h
  rw [grow_append]
  obtain ⟨p, front, front', hfront, hfront', hp⟩ :=
    exists_commonStart before.reverse before'.reverse
  obtain ⟨q, rest, rest', rfl, rfl, hq⟩ := exists_commonStart after after'
  rw [List.reverse_eq_iff, List.reverse_append] at hfront hfront'
  rw [← hp, ← hq]
  subst hfront hfront'
  exact ⟨p.reverse ++ (w ++ q), front.reverse, front'.reverse, rest, rest', by simp, by simp,
    by simp, by simp, by simp [Nat.add_assoc]⟩

/-- What holds of a row and of the longest block so far, when `i` characters are behind: the entries
are lengths of parts that both texts share and that end just there, and the block is shared. -/
structure RowShared (as bs : List Char) (i : Nat) (row : List Nat) (best : Block) : Prop where
  entries : ∀ j k, (0 :: row)[j]? = some k → EndsShared as bs i j k
  shared : best.Shared as bs

theorem rowShared_first (as bs : List Char) :
    RowShared as bs 0 (List.replicate bs.length 0) ⟨0, 0, 0⟩ where
  entries j k hk := by
    rw [← List.replicate_succ] at hk
    rw [List.eq_of_mem_replicate (List.mem_of_getElem? hk)]
    exact endsShared_zero as bs _ _
  shared := ⟨[], [], [], as, bs, rfl, rfl, rfl, rfl, rfl⟩

/-- **Each row keeps what is shared.** -/
theorem RowShared.step {i : Nat} {row : List Nat} {best : Block} {a : Char} (ha : as[i]? = some a)
    (h : RowShared as bs i row best) :
    RowShared as bs (i + 1) (nextRow rare a bs row)
      (improve i 0 (nextRow rare a bs row) best) := by
  have hnext : ∀ j k, (nextRow rare a bs row)[j]? = some k →
      EndsShared as bs (i + 1) (j + 1) k := by
    intro j k hk
    obtain ⟨b, n, hb, hn, rfl⟩ := getElem?_nextRow hk
    split
    · rename_i hagree
      exact (h.entries j n hn).succ ha (hagree.1 ▸ hb)
    · exact endsShared_zero as bs _ _
  refine ⟨fun j k hk => ?_, ?_⟩
  · cases j with
    | zero =>
        cases hk
        exact endsShared_zero as bs _ _
    | succ j => exact hnext j k hk
  · rcases improve_cases i 0 (nextRow rare a bs row) best with hbest | ⟨n, k, hk, hbest⟩
    · rw [hbest]
      exact h.shared
    · obtain ⟨b, -, hb, -⟩ := getElem?_nextRow hk
      rw [hbest, Nat.zero_add]
      exact (hnext n k hk).shared (List.getElem?_eq_some_iff.1 ha).1
        (List.getElem?_eq_some_iff.1 hb).1

/-- The block that is found row by row is shared. -/
theorem shared_longestFrom (rare : Char → Bool) (as bs : List Char) :
    (longestFrom rare bs 0 as (List.replicate bs.length 0) ⟨0, 0, 0⟩).Shared as bs := by
  obtain ⟨row, hrow⟩ := longestFrom_induction (fun _ _ _ _ ha h => h.step ha) (Nat.zero_le _)
    (rowShared_first as bs)
  have hshared := hrow.shared
  rwa [List.drop_zero] at hshared

/-- **The longest block is shared.** -/
theorem shared_longest (rare : Char → Bool) (as bs : List Char) :
    (longest rare as bs).Shared as bs :=
  (shared_longestFrom rare as bs).grow

/-! ### Matched characters -/

/-- **No character is matched twice**, and texts that are matched as a whole are equal. -/
theorem matchedWithin_bounds (rare : Char → Bool) (depth : Nat) (as bs : List Char) :
    matchedWithin rare depth as bs ≤ as.length ∧ matchedWithin rare depth as bs ≤ bs.length ∧
      (matchedWithin rare depth as bs = as.length → matchedWithin rare depth as bs = bs.length →
        as = bs) := by
  have hnone (as bs : List Char) : 0 ≤ as.length ∧ 0 ≤ bs.length ∧
      (0 = as.length → 0 = bs.length → as = bs) := by
    refine ⟨Nat.zero_le _, Nat.zero_le _, fun has hbs => ?_⟩
    rw [List.eq_nil_of_length_eq_zero has.symm, List.eq_nil_of_length_eq_zero hbs.symm]
  induction depth generalizing as bs with
  | zero => exact hnone as bs
  | succ depth ih =>
      rw [matchedWithin]
      split
      · exact hnone as bs
      · obtain ⟨w, before, before', after, after', has, hbs, hleft, hright, hsize⟩ :=
          shared_longest rare as bs
        obtain ⟨hle, hle', heq⟩ := ih before before'
        obtain ⟨hbehind, hbehind', heq'⟩ := ih after after'
        rw [← hleft, ← hright, ← hsize, has, hbs, List.take_left, List.take_left,
          drop_behind_block, drop_behind_block]
        simp only [List.length_append]
        refine ⟨by omega, by omega, fun hall hall' => ?_⟩
        rw [heq (by omega) (by omega), heq' (by omega) (by omega)]

/-- No character of the left text is matched twice. -/
theorem matched_le_left (as bs : List Char) : matched as bs ≤ as.length :=
  (matchedWithin_bounds (isRare bs) as.length as bs).1

/-- No character of the right text is matched twice. -/
theorem matched_le_right (as bs : List Char) : matched as bs ≤ bs.length :=
  (matchedWithin_bounds (isRare bs) as.length as bs).2.1

/-- **Texts that are matched as a whole are equal.** -/
theorem eq_of_matched (h : matched as bs = as.length) (h' : matched as bs = bs.length) : as = bs :=
  (matchedWithin_bounds (isRare bs) as.length as bs).2.2 h h'

end Citations.Similarity

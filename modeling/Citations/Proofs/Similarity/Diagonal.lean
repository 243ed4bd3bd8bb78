/-
**A text compared with itself.**

A character that makes up too much of a text starts no block, so in a long text the longest block
need not be the whole text, and there may be none at all.  But it lies on the diagonal, at the same
place in both copies: an entry off the diagonal is no more than the run of rare characters before
either of its places, and of the two runs the one that ends first has been seen on the diagonal
before, or is seen in the same row before.  From the diagonal the block grows over both texts.

Main definitions:

* `Citations.Similarity.run` — the number of rare characters just before a place;
* `Citations.Similarity.OnDiagonal` — what holds of the rows and of the longest block so far.

Main results:

* `Citations.Similarity.improve_of_le`, `Citations.Similarity.improve_diagonal` — what a row does to
  the longest block;
* `Citations.Similarity.OnDiagonal.step` — a row keeps the longest block on the diagonal;
* `Citations.Similarity.longest_self` — **the longest block of a text and itself is the whole
  text**;
* `Citations.Similarity.matched_self` — **a text is matched with itself as a whole**.
-/

import Citations.Proofs.Similarity.SharedBlocks

set_option relaxedAutoImplicit false
set_option autoImplicit false

namespace Citations.Similarity

variable {cs : List Char} {rare : Char → Bool}

/-! ### Runs of rare characters -/

/-- The number of rare characters just before a place. -/
def run (rare : Char → Bool) (cs : List Char) (place : Nat) : Nat :=
  ((cs.take place).reverse.takeWhile rare).length

theorem run_succ {place : Nat} {c : Char} (h : cs[place]? = some c) :
    run rare cs (place + 1) = if rare c then run rare cs place + 1 else 0 := by
  rw [run, run, List.take_add_one, h, Option.toList_some, List.reverse_append,
    List.reverse_singleton, List.singleton_append, List.takeWhile_cons]
  split <;> rfl

/-! ### Rows -/

/-- A row without an entry beyond the longest block changes nothing. -/
theorem improve_of_le {i j : Nat} {row : List Nat} {best : Block}
    (h : ∀ k ∈ row, k ≤ best.size) : improve i j row best = best := by
  induction row generalizing j with
  | nil => rfl
  | cons k row ih =>
      have hk : ¬ best.size < k := Nat.not_lt.2 (h k (List.mem_cons_self ..))
      rw [improve, if_neg hk]
      exact ih fun k' hk' => h k' (List.mem_cons_of_mem _ hk')

theorem improve_append (i j : Nat) (front back : List Nat) (best : Block) :
    improve i j (front ++ back) best =
      improve i (j + front.length) back (improve i j front best) := by
  induction front generalizing j best with
  | nil => rfl
  | cons k front ih =>
      rw [List.cons_append, improve, improve, ih, List.length_cons]
      congr 1
      omega

/-- A row whose entry on the diagonal is its greatest one, and in which no earlier entry is beyond
the longest block, brings at most the block on the diagonal. -/
theorem improve_diagonal {i k : Nat} {row : List Nat} {best : Block} (hk : row[i]? = some k)
    (hbefore : ∀ j < i, ∀ n : Nat, row[j]? = some n → n ≤ best.size)
    (hgreatest : ∀ j n : Nat, row[j]? = some n → n ≤ k) :
    improve i 0 row best = if best.size < k then ⟨i + 1 - k, i + 1 - k, k⟩ else best := by
  obtain ⟨hlt, hget⟩ := List.getElem?_eq_some_iff.1 hk
  have hfront : improve i 0 (row.take i) best = best := by
    refine improve_of_le fun n hn => ?_
    obtain ⟨j, hj⟩ := List.mem_iff_getElem?.1 hn
    rw [List.getElem?_take] at hj
    split at hj
    · rename_i hji
      exact hbefore j hji n hj
    · cases hj
  rw [← List.take_append_drop i row, improve_append, hfront, List.drop_eq_getElem_cons hlt, hget,
    improve, List.length_take_of_le hlt.le, Nat.zero_add]
  refine improve_of_le fun n hn => ?_
  obtain ⟨j, hj⟩ := List.mem_iff_getElem?.1 hn
  rw [List.getElem?_drop] at hj
  have hle := hgreatest _ n hj
  split
  · exact hle
  · omega

/-- What holds of a row of a text against itself and of the longest block so far, when `i`
characters are behind: no entry is beyond the runs before its places, the entry on the diagonal is
the run, and the longest block lies on the diagonal and is no shorter than the runs seen. -/
structure OnDiagonal (rare : Char → Bool) (cs : List Char) (i : Nat) (row : List Nat)
    (best : Block) : Prop where
  le_run : ∀ j k, (0 :: row)[j]? = some k → k ≤ run rare cs j ∧ k ≤ run rare cs i
  diagonal : (0 :: row)[i]? = some (run rare cs i)
  left_eq : best.left = best.right
  run_le : ∀ j ≤ i, run rare cs j ≤ best.size

theorem onDiagonal_first (rare : Char → Bool) (cs : List Char) :
    OnDiagonal rare cs 0 (List.replicate cs.length 0) ⟨0, 0, 0⟩ where
  le_run j k h := by
    rw [← List.replicate_succ] at h
    rw [List.eq_of_mem_replicate (List.mem_of_getElem? h)]
    exact ⟨Nat.zero_le _, Nat.zero_le _⟩
  diagonal := rfl
  left_eq := rfl
  run_le j h := by
    rw [Nat.le_zero.1 h]
    exact Nat.le_refl _

/-- No entry of the next row is beyond the runs before its places. -/
theorem OnDiagonal.le_run_nextRow {i : Nat} {row : List Nat} {best : Block} {c : Char}
    (hc : cs[i]? = some c) (h : OnDiagonal rare cs i row best) {j k : Nat}
    (hk : (nextRow rare c cs row)[j]? = some k) :
    k ≤ run rare cs (j + 1) ∧ k ≤ run rare cs (i + 1) := by
  obtain ⟨b, n, hb, hn, rfl⟩ := getElem?_nextRow hk
  obtain ⟨hj, hi⟩ := h.le_run j n hn
  rw [run_succ hb, run_succ hc]
  split
  · rename_i hagree
    obtain ⟨rfl, hrare⟩ := hagree
    rw [if_pos hrare, if_pos hrare]
    exact ⟨Nat.succ_le_succ hj, Nat.succ_le_succ hi⟩
  · exact ⟨Nat.zero_le _, Nat.zero_le _⟩

theorem OnDiagonal.diagonal_nextRow {i : Nat} {row : List Nat} {best : Block} {c : Char}
    (hc : cs[i]? = some c) (h : OnDiagonal rare cs i row best) :
    (nextRow rare c cs row)[i]? = some (run rare cs (i + 1)) := by
  rw [nextRow, List.getElem?_zipWith_eq_some.2 ⟨c, _, hc, h.diagonal, rfl⟩, run_succ hc]
  simp

/-- **A row keeps the longest block on the diagonal.** -/
theorem OnDiagonal.step {i : Nat} {row : List Nat} {best : Block} {c : Char}
    (hc : cs[i]? = some c) (h : OnDiagonal rare cs i row best) :
    OnDiagonal rare cs (i + 1) (nextRow rare c cs row)
      (improve i 0 (nextRow rare c cs row) best) := by
  have hdiagonal := h.diagonal_nextRow hc
  rw [improve_diagonal hdiagonal
    (fun j hji k hk => (h.le_run_nextRow hc hk).1.trans (h.run_le (j + 1) hji))
    fun j k hk => (h.le_run_nextRow hc hk).2]
  refine ⟨fun j k hk => ?_, hdiagonal, ?_, fun j hj => ?_⟩
  · cases j with
    | zero =>
        cases hk
        exact ⟨Nat.zero_le _, Nat.zero_le _⟩
    | succ j => exact h.le_run_nextRow hc hk
  · split
    · rfl
    · exact h.left_eq
  · rcases Nat.le_or_eq_of_le_succ hj with hji | rfl
    · have hold := h.run_le j hji
      split
      · exact hold.trans (Nat.le_of_lt ‹_›)
      · exact hold
    · split
      · exact Nat.le_refl _
      · exact Nat.not_lt.1 ‹_›

/-! ### The whole text -/

theorem commonStart_self (cs : List Char) : commonStart cs cs = cs.length := by
  induction cs with
  | nil => rfl
  | cons c cs ih => rw [commonStart, if_pos rfl, ih, List.length_cons]

/-- **The longest block of a text and itself is the whole text.** -/
theorem longest_self (rare : Char → Bool) (cs : List Char) :
    longest rare cs cs = ⟨0, 0, cs.length⟩ := by
  obtain ⟨row, hdiagonal⟩ := longestFrom_induction (fun _ _ _ _ hc h => h.step hc)
    (Nat.zero_le _) (onDiagonal_first rare cs)
  rw [List.drop_zero] at hdiagonal
  obtain ⟨w, before, before', after, after', hcs, hcs', hleft, hright, hsize⟩ :=
    shared_longestFrom rare cs cs
  obtain ⟨rfl, hrest⟩ := List.append_inj (hcs.symm.trans hcs')
    (hleft.trans (hdiagonal.left_eq.trans hright.symm))
  obtain rfl := List.append_cancel_left hrest
  set best := longestFrom rare cs 0 cs (List.replicate cs.length 0) ⟨0, 0, 0⟩ with hbest
  have hblock : best = ⟨before.length, before.length, w.length⟩ := by
    calc best = ⟨best.left, best.right, best.size⟩ := rfl
      _ = ⟨before.length, before.length, w.length⟩ := by rw [← hleft, ← hright, ← hsize]
  rw [longest, ← hbest, hblock, hcs, grow_append, commonStart_self, commonStart_self,
    List.length_reverse, Nat.sub_self, List.length_append, List.length_append, Nat.add_assoc]

/-- **A text is matched with itself as a whole.** -/
theorem matched_self (cs : List Char) : matched cs cs = cs.length := by
  have hnil (depth : Nat) : matchedWithin (isRare cs) depth [] [] = 0 :=
    Nat.le_zero.1 (matchedWithin_bounds (isRare cs) depth [] []).1
  cases cs with
  | nil => rfl
  | cons c cs =>
      rw [matched, List.length_cons, matchedWithin, longest_self]
      simp [hnil]

end Citations.Similarity

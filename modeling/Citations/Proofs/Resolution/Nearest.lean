/-
**The nearest root of a vault.**

A path that may start at the root of a vault is looked for in the directories above the document,
the nearest one first.  Going up from a place takes characters away from its text, until nothing
but slashes is left of it; from there it leads nowhere.  So the search comes to an end, after no
more steps than the path of the document has characters, and the bound on the steps of
`Citations.Resolution.chain` is never reached.

Main definitions:

* `Citations.Path.above` — the directory some levels above the one that holds a document.

Main results:

* `Citations.Resolution.chain_eq` — one step of going up;
* `Citations.Resolution.isLeast_length_chain` — how often going up leads anywhere;
* `Citations.Resolution.vault?_nearest` — **the nearest directory counts**, and no file is found
  exactly if there is none in any of them.
-/

import Citations.Proofs.Path.FromDirectory
import Citations.Resolution
import Mathlib.Data.List.Infix
import Mathlib.Logic.Function.Iterate
import Mathlib.Order.Bounds.Basic

set_option relaxedAutoImplicit false
set_option autoImplicit false

namespace Citations

open Text

/-! ### Going up -/

namespace Path

variable {p : String}

/-- Going up takes characters away from the end of a path. -/
theorem prefix_directory (p : String) : (directory p).toList <+: p.toList := by
  rw [directory, String.toList_ofList, ← List.reverse_suffix, List.reverse_reverse]
  split
  · exact List.dropWhile_suffix _
  · exact (List.dropWhile_suffix _).trans (List.dropWhile_suffix _)

/-- Where going up leads anywhere, it leads to a shorter path. -/
theorem length_directory_lt (h : directory p ≠ p) : (directory p).length < p.length := by
  have hle := (prefix_directory p).length_le
  refine Nat.lt_of_le_of_ne hle fun heq => h ?_
  exact String.toList_inj.1 ((prefix_directory p).eq_of_length heq)

/-- The directory that is some levels above the one that holds a document. -/
def above (source : String) (levels : Nat) : String := directory^[levels + 1] source

end Path

namespace Resolution

open Citations.Path (above directory join length_directory_lt normalize prefix_directory)

variable {t : FileTree} {raw source dir : String}

/-! ### The directories from one upwards -/

/-- The directories from one upwards do not depend on the bound, as long as it is long enough. -/
theorem chainWithin_eq_of_lt :
    ∀ (m n : Nat) (dir : String), dir.length < m → dir.length < n →
      chainWithin m dir = chainWithin n dir := by
  intro m
  induction m with
  | zero => intro n dir hm; omega
  | succ m ih =>
      intro n dir hm hn
      obtain ⟨n, rfl⟩ : ∃ k, n = k + 1 := ⟨n - 1, by omega⟩
      by_cases h : dir = directory dir
      · simp only [chainWithin, if_pos h]
      · have hlt := length_directory_lt (Ne.symm h)
        simp only [chainWithin, if_neg h, ih n (directory dir) (by omega) (by omega)]

/-- **One step of going up**: it ends where it leads nowhere. -/
theorem chain_eq (dir : String) :
    chain dir = if dir = directory dir then [] else dir :: chain (directory dir) := by
  by_cases h : dir = directory dir
  · rw [chain, chainWithin]
    simp only [if_pos h]
  · have hlt := length_directory_lt (Ne.symm h)
    rw [chain, chainWithin, if_neg h, if_neg h, chain,
      chainWithin_eq_of_lt dir.length _ (directory dir) hlt (Nat.lt_succ_self _)]

/-- What holds where going up leads nowhere, and of each place if it holds of the directory above
it, holds of all places. -/
theorem chain_induction {P : String → Prop} (top : ∀ dir, dir = directory dir → P dir)
    (up : ∀ dir, dir ≠ directory dir → P (directory dir) → P dir) (dir : String) : P dir := by
  induction hn : dir.length using Nat.strong_induction_on generalizing dir with
  | _ n ih =>
      by_cases h : dir = directory dir
      · exact top dir h
      · have hlt := length_directory_lt (Ne.symm h)
        exact up dir h (ih _ (by omega) _ rfl)

theorem chain_of_eq (h : dir = directory dir) : chain dir = [] := by
  rw [chain_eq, if_pos h]

theorem chain_of_ne (h : dir ≠ directory dir) : chain dir = dir :: chain (directory dir) := by
  rw [chain_eq, if_neg h]

theorem length_chain_le (dir : String) : (chain dir).length ≤ dir.length := by
  induction dir using chain_induction with
  | top dir h => simp [chain_of_eq h]
  | up dir h ih =>
      have hlt := length_directory_lt (Ne.symm h)
      rw [chain_of_ne h, List.length_cons]
      omega

/-- **How often going up leads anywhere**: as often as there are directories from one upwards. -/
theorem isLeast_length_chain (dir : String) :
    IsLeast {n | directory (directory^[n] dir) = directory^[n] dir} (chain dir).length := by
  induction dir using chain_induction with
  | top dir h =>
      rw [chain_of_eq h]
      exact ⟨h.symm, fun n _ => Nat.zero_le n⟩
  | up dir h ih =>
      rw [chain_of_ne h, List.length_cons]
      refine ⟨?_, fun n hn => ?_⟩
      · simpa only [Set.mem_ofPred_eq, Function.iterate_succ_apply] using ih.1
      · cases n with
        | zero => exact absurd (Eq.symm hn) h
        | succ n =>
            rw [Set.mem_ofPred_eq, Function.iterate_succ_apply] at hn
            exact Nat.succ_le_succ (ih.2 hn)

example : chain "//a//b" = ["//a//b", "//a"] := by decide +kernel

theorem getElem?_chain (dir : String) {n : Nat} (hn : n < (chain dir).length) :
    (chain dir)[n]? = some (directory^[n] dir) := by
  induction dir using chain_induction generalizing n with
  | top dir h => simp [chain_of_eq h] at hn
  | up dir h ih =>
      rw [chain_of_ne h] at hn ⊢
      cases n with
      | zero => rfl
      | succ n =>
          rw [List.getElem?_cons_succ, Function.iterate_succ_apply]
          exact ih (Nat.lt_of_succ_lt_succ hn)

theorem getElem_chain (dir : String) {n : Nat} (hn : n < (chain dir).length) :
    (chain dir)[n] = directory^[n] dir :=
  (List.getElem_eq_iff hn).2 (getElem?_chain dir hn)

/-! ### The nearest directory -/

/-- What is found among the directories from one upwards is the nearest one. -/
theorem find?_chain_eq_some_iff {holds : String → Bool} {found : String} :
    (chain dir).find? holds = some found ↔
      ∃ n < (chain dir).length, IsLeast {n | holds (directory^[n] dir) = true} n ∧
        found = directory^[n] dir := by
  rw [List.find?_eq_some_iff_getElem]
  constructor
  · rintro ⟨hholds, n, hn, hfound, hbefore⟩
    rw [getElem_chain dir hn] at hfound
    subst hfound
    refine ⟨n, hn, ⟨hholds, fun k hk => ?_⟩, rfl⟩
    by_contra hlt
    rw [Set.mem_ofPred_eq] at hk
    have hnot := hbefore k (by omega)
    rw [getElem_chain, hk] at hnot
    cases hnot
  · rintro ⟨n, hn, ⟨hholds, hleast⟩, rfl⟩
    refine ⟨hholds, n, hn, getElem_chain dir hn, fun k hk => ?_⟩
    rw [getElem_chain, Bool.not_eq_true']
    refine Bool.eq_false_iff.2 fun hk' => ?_
    have := hleast hk'
    omega

theorem find?_chain_eq_none_iff {holds : String → Bool} :
    (chain dir).find? holds = none ↔
      ∀ n < (chain dir).length, holds (directory^[n] dir) = false := by
  rw [List.find?_eq_none]
  constructor
  · intro h n hn
    exact Bool.eq_false_iff.2 (h _ (List.mem_of_getElem? (getElem?_chain dir hn)))
  · intro h d hd
    obtain ⟨n, hn, rfl⟩ := List.getElem_of_mem hd
    rw [getElem_chain dir hn, h n hn]
    exact Bool.false_ne_true

/-- A path that may start at the root of a vault leads to the file of the first directory above the
document in which it leads to one. -/
theorem vault?_eq (h : isVaultPath (decode raw) = true) :
    vault? t raw source =
      ((chain (directory source)).find? fun dir => t.isFile (join dir (decode raw))).map
        fun dir => normalize (join dir (decode raw)) := by
  simp only [vault?, if_pos h, List.find?_map, Option.map_map, Function.comp_def]

/-- **The nearest directory counts.**  Going up from a document leads somewhere for as many levels
as its path has characters at most.  If the path may not start at the root of a vault, or leads to
a file from none of the directories on these levels, there is no file; and otherwise it is the one
that the path leads to from the nearest of them. -/
theorem vault?_nearest (t : FileTree) (raw source : String) :
    ∃ height ≤ source.length,
      IsLeast {n | directory (above source n) = above source n} height ∧
      (vault? t raw source = none ↔ isVaultPath (decode raw) = false ∨
        ∀ n < height, t.isFile (join (above source n) (decode raw)) = false) ∧
      ∀ path, vault? t raw source = some path ↔ isVaultPath (decode raw) = true ∧
        ∃ n < height, IsLeast {n | t.isFile (join (above source n) (decode raw)) = true} n ∧
          path = normalize (join (above source n) (decode raw)) := by
  have hheight : (chain (directory source)).length ≤ source.length :=
    (length_chain_le _).trans (prefix_directory source).length_le
  refine ⟨(chain (directory source)).length, hheight, isLeast_length_chain _, ?_, fun path => ?_⟩
  · cases hvault : isVaultPath (decode raw) with
    | false => simp [vault?, hvault]
    | true =>
        rw [vault?_eq hvault, Option.map_eq_none_iff, find?_chain_eq_none_iff]
        simp [above]
  · cases hvault : isVaultPath (decode raw) with
    | false => simp [vault?, hvault]
    | true =>
        rw [vault?_eq hvault, Option.map_eq_some_iff]
        constructor
        · rintro ⟨dir, hdir, rfl⟩
          obtain ⟨n, hn, hleast, rfl⟩ := find?_chain_eq_some_iff.1 hdir
          exact ⟨rfl, n, hn, hleast, rfl⟩
        · rintro ⟨-, n, hn, hleast, hpath⟩
          exact ⟨_, find?_chain_eq_some_iff.2 ⟨n, hn, hleast, rfl⟩, hpath.symm⟩

end Resolution

end Citations

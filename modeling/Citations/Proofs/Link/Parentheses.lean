/-
**The parenthesis that closes another one.**

The search for a closing parenthesis goes from left to right, keeps the depth that it has reached
and passes over each backslash together with the character behind it.  What it finds can be said
without the search: it is the first place behind the opening parenthesis up to which as many
parentheses are closed as are opened, where a character behind a backslash does not count.

Main definitions:

* `Citations.Destination.unescaped` — what is left of a text without its escapes;
* `Citations.Destination.IsBalanced` — whether a text closes as many parentheses as it opens;
* `Citations.Destination.excess` — how many more parentheses a text opens than it closes;
* `Citations.Destination.ClosesAt` — whether a place is the first one at which the depth is zero.

Main results:

* `Citations.Destination.closingFrom_eq_some_iff` — the search finds the first place at which the
  depth is zero;
* `Citations.Destination.getElem?_of_closingFrom` — there is a closing parenthesis at this place;
* `Citations.closingParen_least` — **the search finds the least place up to which the text is
  balanced**.
-/

import Citations.Link.Destination
import Citations.Text.Scan
import Mathlib.Data.Nat.Find
import Mathlib.Order.Bounds.Basic

set_option relaxedAutoImplicit false
set_option autoImplicit false

namespace Citations

open Text

namespace Destination

variable {c : Char} {cs : List Char} {depth : Int} {pos j k : Nat}

/-! ### Texts without escapes -/

/-- What is left of a text when each backslash is left out, and the character behind it with it. -/
def unescaped : List Char → List Char
  | [] => []
  | ['\\'] => []
  | '\\' :: _ :: cs => unescaped cs
  | c :: cs => c :: unescaped cs

theorem unescaped_cons (hc : c ≠ '\\') (cs : List Char) :
    unescaped (c :: cs) = c :: unescaped cs := by
  rw [unescaped]
  · rintro rfl -
    exact hc rfl
  · rintro _ _ rfl -
    exact hc rfl

/-- Whether a text closes as many parentheses as it opens, escapes left out. -/
def IsBalanced (cs : List Char) : Prop := (unescaped cs).count '(' = (unescaped cs).count ')'

instance (cs : List Char) : Decidable (IsBalanced cs) := inferInstanceAs (Decidable (_ = _))

/-- How many more parentheses a text opens than it closes, escapes left out. -/
def excess (cs : List Char) : Int := (unescaped cs).count '(' - (unescaped cs).count ')'

/-- What a character adds to the depth. -/
def weight (c : Char) : Int := if c = '(' then 1 else if c = ')' then -1 else 0

@[simp] theorem weight_open : weight '(' = 1 := rfl

theorem weight_of_ne (hopen : c ≠ '(') (hclose : c ≠ ')') : weight c = 0 := by
  rw [weight, if_neg hopen, if_neg hclose]

theorem isBalanced_iff : IsBalanced cs ↔ excess cs = 0 := by
  unfold IsBalanced excess
  omega

@[simp] theorem excess_nil : excess [] = 0 := rfl

@[simp] theorem excess_backslash : excess ['\\'] = 0 := rfl

@[simp] theorem excess_escape (c : Char) (cs : List Char) :
    excess ('\\' :: c :: cs) = excess cs := rfl

theorem excess_cons (hc : c ≠ '\\') (cs : List Char) :
    excess (c :: cs) = weight c + excess cs := by
  rw [excess, excess, unescaped_cons hc, weight]
  by_cases hopen : c = '('
  · subst hopen
    simp only [List.count_cons_self, List.count_cons_of_ne (by decide : '(' ≠ ')'), if_true]
    omega
  · by_cases hclose : c = ')'
    · subst hclose
      simp only [List.count_cons_self, List.count_cons_of_ne hopen, if_true, if_neg hopen]
      omega
    · rw [List.count_cons_of_ne hopen, List.count_cons_of_ne hclose, if_neg hopen, if_neg hclose]
      omega

/-! ### The first place at which the depth is zero -/

/-- Whether place `k` of a text is the first one at which the depth is zero, if the text begins at
the given depth. -/
structure ClosesAt (depth : Int) (cs : List Char) (k : Nat) : Prop where
  lt_length : k < cs.length
  zero : depth + excess (cs.take (k + 1)) = 0
  ne_zero : ∀ i < k, depth + excess (cs.take (i + 1)) ≠ 0

/-- Places at which the depth is not zero are passed over. -/
theorem closesAt_iff_of_passed {n : Nat} {w : Int}
    (hexcess : ∀ i, excess (cs.take (n + i)) = w + excess ((cs.drop n).take i))
    (hpassed : ∀ i < n, depth + excess (cs.take (i + 1)) ≠ 0) :
    ClosesAt depth cs k ↔ ∃ i, k = n + i ∧ ClosesAt (depth + w) (cs.drop n) i := by
  have hbehind (i : Nat) : depth + w + excess ((cs.drop n).take i) =
      depth + excess (cs.take (n + i)) := by
    rw [hexcess, Int.add_assoc]
  constructor
  · intro h
    have hle : n ≤ k := by
      by_contra hlt
      exact hpassed k (by omega) h.zero
    obtain ⟨i, rfl⟩ := Nat.exists_eq_add_of_le hle
    refine ⟨i, rfl, ?_, ?_, fun m hm => ?_⟩
    · have := h.lt_length
      rw [List.length_drop]
      omega
    · rw [hbehind]
      exact h.zero
    · rw [hbehind]
      exact h.ne_zero (n + m) (by omega)
  · rintro ⟨i, rfl, h⟩
    refine ⟨?_, ?_, fun m hm => ?_⟩
    · have := h.lt_length
      rw [List.length_drop] at this
      omega
    · have := h.zero
      rwa [hbehind] at this
    · by_cases hlt : m < n
      · exact hpassed m hlt
      · obtain ⟨m, rfl⟩ := Nat.exists_eq_add_of_le (Nat.le_of_not_lt hlt)
        have := h.ne_zero m (by omega)
        rwa [hbehind] at this

theorem closesAt_cons_iff (hc : c ≠ '\\') (hdepth : depth + weight c ≠ 0) :
    ClosesAt depth (c :: cs) k ↔ ∃ i, k = 1 + i ∧ ClosesAt (depth + weight c) cs i := by
  refine closesAt_iff_of_passed (n := 1) (fun i => ?_) (fun i hi => ?_)
  · rw [Nat.add_comm, List.take_succ_cons, excess_cons hc]
    rfl
  · obtain rfl : i = 0 := by omega
    simpa [excess_cons hc] using hdepth

/-- An escape does not change the depth, neither at the backslash nor behind it. -/
theorem closesAt_escape_iff (hdepth : depth ≠ 0) :
    ClosesAt depth ('\\' :: c :: cs) k ↔ ∃ i, k = 2 + i ∧ ClosesAt depth cs i := by
  suffices hiff : ClosesAt depth ('\\' :: c :: cs) k ↔
      ∃ i, k = 2 + i ∧ ClosesAt (depth + 0) cs i by
    rwa [Int.add_zero] at hiff
  refine closesAt_iff_of_passed (fun i => ?_) (fun i hi => ?_)
  · rw [Nat.add_comm, List.take_succ_cons, List.take_succ_cons, excess_escape, Int.zero_add]
    rfl
  · rcases i with _ | _ | i
    · simpa using hdepth
    · simpa using hdepth
    · omega

/-- A character that leads to the depth zero is the first place where it is reached. -/
theorem closesAt_cons_iff_of_zero (hc : c ≠ '\\') (hdepth : depth + weight c = 0) :
    ClosesAt depth (c :: cs) k ↔ k = 0 := by
  have hfirst : depth + excess ((c :: cs).take (0 + 1)) = 0 := by
    simpa [excess_cons hc] using hdepth
  constructor
  · intro h
    refine Nat.eq_zero_of_not_pos fun hk => ?_
    exact h.ne_zero 0 hk hfirst
  · rintro rfl
    exact ⟨Nat.succ_pos _, hfirst, fun i hi => absurd hi (Nat.not_lt_zero i)⟩

/-- **The search finds the first place at which the depth is zero.** -/
theorem closingFrom_eq_some_iff (hdepth : 0 < depth) :
    closingFrom depth pos cs = some j ↔ ∃ k, j = pos + k ∧ ClosesAt depth cs k := by
  -- what is passed over is counted once, in the place at which the search goes on
  have hshift {pos n : Nat} {d e : Int} {cs rest : List Char}
      (h : ∀ k, ClosesAt d cs k ↔ ∃ i, k = n + i ∧ ClosesAt e rest i) :
      (∃ i, j = pos + n + i ∧ ClosesAt e rest i) ↔ ∃ k, j = pos + k ∧ ClosesAt d cs k := by
    constructor
    · rintro ⟨i, rfl, hi⟩
      exact ⟨n + i, Nat.add_assoc .., (h _).2 ⟨i, rfl, hi⟩⟩
    · rintro ⟨k, rfl, hk⟩
      obtain ⟨i, rfl, hi⟩ := (h k).1 hk
      exact ⟨i, (Nat.add_assoc ..).symm, hi⟩
  have hplain {c : Char} {cs : List Char} (hend : c = '\\' → cs = [] → False)
      (hescape : ∀ x tail, c = '\\' → cs = x :: tail → False) : c ≠ '\\' := by
    rintro rfl
    cases cs with
    | nil => exact hend rfl rfl
    | cons x tail => exact hescape x tail rfl rfl
  fun_induction closingFrom depth pos cs with
  | case1 depth pos =>
      refine iff_of_false (by simp) ?_
      rintro ⟨k, -, h⟩
      exact absurd h.lt_length (Nat.not_lt_zero k)
  | case2 depth pos =>
      refine iff_of_false (by simp) ?_
      rintro ⟨k, -, h⟩
      obtain rfl : k = 0 := Nat.lt_one_iff.1 h.lt_length
      have hzero : depth + 0 = 0 := h.zero
      omega
  | case3 depth pos c cs ih =>
      exact (ih hdepth).trans (hshift fun k => closesAt_escape_iff (Int.ne_of_gt hdepth))
  | case4 depth pos cs hend hescape ih =>
      have hopen : depth + weight '(' ≠ 0 := Int.ne_of_gt (Int.add_pos hdepth (by decide))
      exact (ih (by omega)).trans (hshift fun k => closesAt_cons_iff (by decide) hopen)
  | case5 depth pos cs hzero hend hescape =>
      have hclose : depth + weight ')' = 0 := hzero
      simp only [closesAt_cons_iff_of_zero (by decide : ')' ≠ '\\') hclose, exists_eq_right,
        Nat.add_zero, Option.some.injEq, eq_comm]
  | case6 depth pos cs hne hend hescape _ ih =>
      have hclose : depth + weight ')' ≠ 0 := hne
      have hbehind : 0 < depth - 1 :=
        lt_of_le_of_ne (Int.sub_nonneg_of_le hdepth) (Ne.symm hne)
      exact (ih hbehind).trans (hshift fun k => closesAt_cons_iff (by decide) hclose)
  | case7 depth pos c cs hend hescape hopen hclose ih =>
      have hweight := weight_of_ne hopen hclose
      refine (ih hdepth).trans (hshift fun k => ?_)
      rw [closesAt_cons_iff (hplain hend hescape) (by omega), hweight, Int.add_zero]

/-- There is a closing parenthesis at the place that the search finds. -/
theorem getElem?_of_closingFrom (h : closingFrom depth pos cs = some j) :
    ∃ k, j = pos + k ∧ cs[k]? = some ')' := by
  have hshift {pos n : Nat} {rest : List Char} (front : List Char) (hfront : front.length = n)
      (h : ∃ i, j = pos + n + i ∧ rest[i]? = some ')') :
      ∃ k, j = pos + k ∧ (front ++ rest)[k]? = some ')' := by
    obtain ⟨i, rfl, hi⟩ := h
    refine ⟨n + i, Nat.add_assoc .., ?_⟩
    rw [← hfront, List.getElem?_append_right (Nat.le_add_right ..), Nat.add_sub_cancel_left, hi]
  fun_induction closingFrom depth pos cs with
  | case1 => cases h
  | case2 => cases h
  | case3 depth pos c cs ih => exact hshift ['\\', c] rfl (ih h)
  | case4 depth pos cs hend hescape ih => exact hshift ['('] rfl (ih h)
  | case5 depth pos cs => exact ⟨0, (Option.some.inj h).symm, rfl⟩
  | case6 depth pos cs hne hend hescape _ ih => exact hshift [')'] rfl (ih h)
  | case7 depth pos c cs hend hescape hopen hclose ih => exact hshift [c] rfl (ih h)

end Destination

open Destination

variable {text : List Char} {start j : Nat}

/-- A closing parenthesis is looked for behind the opening one. -/
theorem closingParen_eq_some_iff (h : text[start]? = some '(') :
    closingParen text start = some j ↔
      ∃ k, j = start + 1 + k ∧ ClosesAt 1 (text.drop (start + 1)) k := by
  obtain ⟨hlt, hopen⟩ := List.getElem?_eq_some_iff.1 h
  have hfrom : closingParen text start = closingFrom 1 (start + 1) (text.drop (start + 1)) := by
    rw [closingParen, List.drop_eq_getElem_cons hlt, hopen]
    rfl
  rw [hfrom, closingFrom_eq_some_iff (by decide)]

/-- The text from an opening parenthesis on is balanced where the depth behind it is zero. -/
theorem isBalanced_slice_iff (h : text[start]? = some '(') (k : Nat) :
    IsBalanced (slice text start (start + 1 + k + 1)) ↔
      1 + excess ((text.drop (start + 1)).take (k + 1)) = 0 := by
  obtain ⟨hlt, hopen⟩ := List.getElem?_eq_some_iff.1 h
  have hslice : slice text start (start + 1 + k + 1) =
      '(' :: (text.drop (start + 1)).take (k + 1) := by
    have hlength : start + 1 + k + 1 - start = k + 1 + 1 := by omega
    rw [slice, hlength, List.drop_eq_getElem_cons hlt, hopen, List.take_succ_cons]
  rw [hslice, isBalanced_iff, excess_cons (by decide), weight_open]

/-- The search finds the least place behind the opening parenthesis up to which the text is
balanced. -/
theorem closingParen_eq_some_iff_isLeast (h : text[start]? = some '(') :
    closingParen text start = some j ↔
      IsLeast {i | start < i ∧ i < text.length ∧ IsBalanced (slice text start (i + 1))} j := by
  rw [closingParen_eq_some_iff h]
  constructor
  · rintro ⟨k, rfl, hk⟩
    have hlt := hk.lt_length
    rw [List.length_drop] at hlt
    refine ⟨⟨by omega, by omega, (isBalanced_slice_iff h k).2 hk.zero⟩, ?_⟩
    rintro i ⟨hstart, -, hbalanced⟩
    obtain ⟨m, rfl⟩ := Nat.exists_eq_add_of_le (Nat.succ_le_of_lt hstart)
    have hle : ¬ m < k := fun hm => hk.ne_zero m hm ((isBalanced_slice_iff h m).1 hbalanced)
    omega
  · rintro ⟨⟨hstart, hlt, hbalanced⟩, hleast⟩
    obtain ⟨k, rfl⟩ := Nat.exists_eq_add_of_le (Nat.succ_le_of_lt hstart)
    refine ⟨k, rfl, ?_, (isBalanced_slice_iff h k).1 hbalanced, fun m hm hzero => ?_⟩
    · rw [List.length_drop]
      omega
    · have hle : start + 1 + k ≤ start + 1 + m :=
        hleast ⟨by omega, by omega, (isBalanced_slice_iff h m).2 hzero⟩
      omega

/-- **The search for a closing parenthesis finds the least place behind the opening one up to which
the text is balanced**, and finds nothing exactly if there is no such place.  There is a closing
parenthesis at the place that it finds. -/
theorem closingParen_least (h : text[start]? = some '(') :
    (∀ j, closingParen text start = some j ↔
      IsLeast {i | start < i ∧ i < text.length ∧ IsBalanced (slice text start (i + 1))} j) ∧
    (∀ j, closingParen text start = some j → text[j]? = some ')') ∧
    (closingParen text start = none ↔
      ∀ i, start < i → i < text.length → ¬ IsBalanced (slice text start (i + 1))) := by
  refine ⟨fun j => closingParen_eq_some_iff_isLeast h, fun j hj => ?_, ?_⟩
  · obtain ⟨k, rfl, hk⟩ := getElem?_of_closingFrom hj
    rwa [List.getElem?_drop] at hk
  · constructor
    · intro hnone i hstart hlt hbalanced
      have hex : ∃ i, start < i ∧ i < text.length ∧ IsBalanced (slice text start (i + 1)) :=
        ⟨i, hstart, hlt, hbalanced⟩
      have hfound := (closingParen_eq_some_iff_isLeast h).2
        ⟨Nat.find_spec hex, fun m hm => Nat.find_min' hex hm⟩
      cases hnone.symm.trans hfound
    · intro hnever
      refine Option.eq_none_iff_forall_ne_some.2 fun j hj => ?_
      obtain ⟨hstart, hlt, hbalanced⟩ := ((closingParen_eq_some_iff_isLeast h).1 hj).1
      exact hnever j hstart hlt hbalanced

/-- The parenthesis at place 3 is closed at place 10: of those between, one is escaped, and two
belong together. -/
theorem closingParen_least_escaped :
    ("[x](a\\)(b)) c".toList)[3]? = some '(' ∧
      IsLeast {i | 3 < i ∧ i < ("[x](a\\)(b)) c".toList).length ∧
        IsBalanced (slice "[x](a\\)(b)) c".toList 3 (i + 1))} 10 := by
  have hopen : ("[x](a\\)(b)) c".toList)[3]? = some '(' := by decide
  have hfound : closingParen "[x](a\\)(b)) c".toList 3 = some 10 := by decide
  exact ⟨hopen, ((closingParen_least hopen).1 10).1 hfound⟩

end Citations

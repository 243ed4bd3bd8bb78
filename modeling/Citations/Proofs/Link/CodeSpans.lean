/-
**Code spans and runs of backticks.**

A code span is opened by a run of backticks and closed by a later one.  The search for the run that
closes it moves on inside a run that is too long: where there are more backticks than opened the
span, it passes over one more than that.  So a span that `n` backticks have opened is closed by the
first run that can be cut into pieces of `n + 1` backticks and a last one of `n`, which is a run of
`n` backticks or a longer one.  Only in the first case do the backticks that close the span stand
alone.

Main definitions:

* `Citations.CodeSpan.IsRun` — a maximal run of places with a property;
* `Citations.CodeSpan.IsTick`, `Citations.CodeSpan.IsOpenTick` — whether there is a backtick at a
  place, and whether it can open a span;
* `Citations.CodeSpan.Exhausts` — whether a run is cut into pieces as above;
* `Citations.CodeSpan.IsSpan` — what opens a span and what closes it.

Main results:

* `Citations.CodeSpan.closing_eq` — what the search does on one run;
* `Citations.CodeSpan.closing_eq_some_iff` — **the search finds the end of the first run that is
  exhausted**;
* `Citations.codeSpans_delimited` — **the code spans of a line**;
* `Citations.not_codeSpans_matched` — a span can be closed inside a longer run.
-/

import Citations.Link.CodeSpan
import Citations.Proofs.Text.Scan

set_option relaxedAutoImplicit false
set_option autoImplicit false

namespace Citations

open Text

namespace CodeSpan

/-! ### Runs -/

section Run

variable {P : Nat → Prop} {i j n m : Nat}

/-- A maximal run of `n` places with a property, from place `i` on. -/
structure IsRun (P : Nat → Prop) (i n : Nat) : Prop where
  pos : 0 < n
  inside : ∀ k < n, P (i + k)
  behind : ¬ P (i + n)
  before : ∀ j, j + 1 = i → ¬ P j

theorem IsRun.start (h : IsRun P i n) : P i := h.inside 0 h.pos

/-- A maximal run is told by its first place. -/
theorem IsRun.length_eq (h : IsRun P i n) (h' : IsRun P i m) : n = m := by
  rcases Nat.lt_trichotomy n m with hlt | heq | hlt
  · exact absurd (h'.inside n hlt) h.behind
  · exact heq
  · exact absurd (h.inside m hlt) h'.behind

/-- A run that starts later than another one starts behind it. -/
theorem IsRun.lt_start (h : IsRun P i n) (h' : IsRun P j m) (hlt : i < j) : i + n < j := by
  refine Nat.lt_of_not_le fun hle => ?_
  rcases Nat.lt_or_ge j (i + n) with hinside | hge
  · obtain ⟨k, rfl⟩ := Nat.exists_eq_add_of_le (Nat.succ_le_of_lt hlt)
    exact h'.before (i + k) (by omega) (h.inside k (by omega))
  · obtain rfl : j = i + n := by omega
    exact h.behind h'.start

end Run

variable {text cs : List Char} {i j n c len base pos : Nat}

/-- There is a backtick at a place. -/
def IsTick (text : List Char) (i : Nat) : Prop := text[i]? = some '`'

/-- There is a backtick at a place, and no backslash before it. -/
def IsOpenTick (text : List Char) (i : Nat) : Prop :=
  IsTick text i ∧ ∀ j, j + 1 = i → text[j]? ≠ some '\\'

theorem IsTick.lt_length (h : IsTick text i) : i < text.length :=
  (List.getElem?_eq_some_iff.1 h).1

@[simp] theorem ticks_cons_tick (cs : List Char) : ticks ('`' :: cs) = ticks cs + 1 := by
  simp [ticks]

theorem ticks_cons_of_ne {c : Char} (hc : c ≠ '`') (cs : List Char) : ticks (c :: cs) = 0 := by
  simp [ticks, hc]

theorem ticks_spec (cs : List Char) :
    (∀ k < ticks cs, IsTick cs k) ∧ ¬ IsTick cs (ticks cs) := by
  induction cs with
  | nil => exact ⟨fun k hk => absurd hk (Nat.not_lt_zero k), by simp [IsTick]⟩
  | cons c cs ih =>
      by_cases hc : c = '`'
      · subst hc
        rw [ticks_cons_tick]
        refine ⟨fun k hk => ?_, by simpa [IsTick] using ih.2⟩
        cases k with
        | zero => rfl
        | succ k => simpa [IsTick] using ih.1 k (Nat.lt_of_succ_lt_succ hk)
      · rw [ticks_cons_of_ne hc]
        exact ⟨fun k hk => absurd hk (Nat.not_lt_zero k), by simpa [IsTick] using hc⟩

theorem isTick_drop_iff (text : List Char) (i k : Nat) :
    IsTick (text.drop i) k ↔ IsTick text (i + k) := by
  rw [IsTick, IsTick, List.getElem?_drop]

theorem isTick_of_lt_ticks (h : j < ticks (text.drop i)) : IsTick text (i + j) :=
  (isTick_drop_iff ..).1 ((ticks_spec _).1 j h)

theorem not_isTick_ticks (text : List Char) (i : Nat) :
    ¬ IsTick text (i + ticks (text.drop i)) :=
  fun h => (ticks_spec (text.drop i)).2 ((isTick_drop_iff ..).2 h)

theorem ticks_drop_eq (h : ∀ k < n, IsTick text (i + k)) (hbehind : ¬ IsTick text (i + n)) :
    ticks (text.drop i) = n := by
  rcases Nat.lt_trichotomy (ticks (text.drop i)) n with hlt | heq | hlt
  · exact absurd (h _ hlt) (not_isTick_ticks text i)
  · exact heq
  · exact absurd (isTick_of_lt_ticks hlt) hbehind

/-- The backticks from a place on are a maximal run, if there are any and none comes before. -/
theorem isRun_ticks (hpos : 0 < ticks (text.drop i)) (hbefore : ∀ j, j + 1 = i → ¬ IsTick text j) :
    IsRun (IsTick text) i (ticks (text.drop i)) :=
  ⟨hpos, fun _ hk => isTick_of_lt_ticks hk, not_isTick_ticks text i, hbefore⟩

/-- A run from a place on is the one that begins there, or it begins behind the backticks that are
there, if the place is not inside a run. -/
theorem IsRun.eq_or_lt (h : IsRun (IsTick text) c len) (hle : i ≤ c)
    (hbegin : IsTick text i → ∀ j, j + 1 = i → ¬ IsTick text j) :
    c = i ∧ len = ticks (text.drop i) ∨ i + ticks (text.drop i) < c := by
  rcases Nat.eq_zero_or_pos (ticks (text.drop i)) with hzero | hpos
  · have hnone := not_isTick_ticks text i
    rw [hzero] at hnone ⊢
    have hne : c ≠ i := by
      rintro rfl
      exact hnone h.start
    omega
  · have hrun := isRun_ticks hpos (hbegin (isTick_of_lt_ticks hpos))
    rcases Nat.eq_or_lt_of_le hle with rfl | hlt
    · exact .inl ⟨rfl, h.length_eq hrun⟩
    · exact .inr (hrun.lt_start h hlt)

/-! ### The run that closes a span -/

/-- Whether `len` backticks can be cut into pieces of `n + 1` backticks and a last one of `n`. -/
def Exhausts (n len : Nat) : Prop := n + 1 ∣ len + 1

instance (n len : Nat) : Decidable (Exhausts n len) := inferInstanceAs (Decidable (_ ∣ _))

theorem Exhausts.le (h : Exhausts n len) : n ≤ len :=
  Nat.le_of_succ_le_succ (Nat.le_of_dvd (Nat.succ_pos len) h)

/-- Whether a run has as many backticks as have opened a span. -/
def Matches (n len : Nat) : Prop := len = n

theorem exhausts_self (n : Nat) : Exhausts n n := Nat.dvd_refl _

theorem not_exhausts_of_lt (h : len < n) : ¬ Exhausts n len := fun hfits =>
  absurd hfits.le (Nat.not_le_of_lt h)

/-- Taking away a piece of `n + 1` backticks does not matter. -/
theorem exhausts_add_iff : Exhausts n (len + (n + 1)) ↔ Exhausts n len := by
  rw [Exhausts, Exhausts, Nat.add_right_comm]
  exact Nat.dvd_add_left (Nat.dvd_refl _)

theorem closing_skip (n skip pos : Nat) (cs : List Char) :
    closing n skip pos cs = closing n 0 (pos + skip) (cs.drop skip) := by
  induction cs generalizing skip pos with
  | nil => cases skip <;> rfl
  | cons c cs ih =>
      cases skip with
      | zero => rfl
      | succ skip =>
          rw [closing, ih, List.drop_succ_cons]
          congr 1
          omega

theorem ticks_drop (h : i ≤ ticks cs) : ticks (cs.drop i) = ticks cs - i := by
  refine ticks_drop_eq (fun k hk => (ticks_spec cs).1 _ (by omega)) ?_
  rw [Nat.add_sub_cancel' h]
  exact (ticks_spec cs).2

/-- **What the search does on one run:** either it finds the last `n` backticks of the run, or it
goes on behind the character that follows the run. -/
theorem closing_eq (hn : 0 < n) (pos : Nat) (cs : List Char) :
    closing n 0 pos cs =
      if Exhausts n (ticks cs) then some (pos + ticks cs - n)
      else closing n 0 (pos + ticks cs + 1) (cs.drop (ticks cs + 1)) := by
  induction hlength : cs.length using Nat.strongRecOn generalizing pos cs with
  | _ m ih =>
      cases cs with
      | nil =>
          have hshort : ¬ Exhausts n (ticks []) := not_exhausts_of_lt hn
          rw [if_neg hshort]
          rfl
      | cons c cs =>
          rw [List.length_cons] at hlength
          rw [closing]
          rcases Nat.lt_trichotomy (ticks (c :: cs)) n with hlt | heq | hlt
          · rw [if_pos hlt, if_neg (not_exhausts_of_lt hlt)]
            by_cases hc : c = '`'
            · subst hc
              rw [ticks_cons_tick] at hlt ⊢
              have hshort : ¬ Exhausts n (ticks cs) := not_exhausts_of_lt (by omega)
              rw [ih cs.length (by omega) _ _ rfl, if_neg hshort, List.drop_succ_cons]
              congr 1
              omega
            · rw [ticks_cons_of_ne hc]
              rfl
          · rw [if_neg (by omega), if_pos heq, heq, if_pos (exhausts_self n), Nat.add_sub_cancel]
          · -- the search passes over a piece of `n + 1` backticks, and the rest of the run is left
            obtain rfl : c = '`' := Decidable.byContradiction fun hc => by
              rw [ticks_cons_of_ne hc] at hlt
              omega
            rw [ticks_cons_tick] at hlt ⊢
            have hrest : ticks (cs.drop n) = ticks cs - n := ticks_drop (by omega)
            have hpiece : ticks cs + 1 = ticks cs - n + (n + 1) := by omega
            have hlast : pos + 1 + n + (ticks cs - n) - n = pos + (ticks cs + 1) - n := by omega
            have hnext : pos + 1 + n + (ticks cs - n) + 1 = pos + (ticks cs + 1) + 1 := by omega
            have hdrop : n + (ticks cs - n + 1) = ticks cs + 1 := by omega
            have hiff : Exhausts n (ticks cs - n) ↔ Exhausts n (ticks cs + 1) := by
              rw [hpiece, exhausts_add_iff]
            rw [if_neg (by omega), if_neg (by omega), closing_skip,
              ih (cs.drop n).length (by rw [List.length_drop]; omega) _ _ rfl, hrest, hlast, hnext,
              List.drop_drop, hdrop, List.drop_succ_cons]
            simp only [hiff]

/-- From place `i` on, the first run of backticks of a length with a property is the one of `len`
backticks at place `c`. -/
structure IsFirstRun (text : List Char) (closes : Nat → Prop) (i c len : Nat) : Prop where
  run : IsRun (IsTick text) c len
  le : i ≤ c
  fits : closes len
  first : ∀ d m, i ≤ d → IsRun (IsTick text) d m → closes m → c ≤ d

theorem IsFirstRun.eq {closes : Nat → Prop} {d m : Nat} (h : IsFirstRun text closes i c len)
    (h' : IsFirstRun text closes i d m) : c = d ∧ len = m := by
  obtain rfl : c = d := Nat.le_antisymm (h.first d m h'.le h'.run h'.fits)
    (h'.first c len h.le h.run h.fits)
  exact ⟨rfl, h.run.length_eq h'.run⟩

theorem isFirstRun_iff {closes : Nat → Prop} (hle : i ≤ j)
    (hpassed : ∀ d m, i ≤ d → IsRun (IsTick text) d m → closes m → j ≤ d) :
    IsFirstRun text closes i c len ↔ IsFirstRun text closes j c len := by
  constructor
  · intro h
    exact ⟨h.run, hpassed c len h.le h.run h.fits, h.fits,
      fun d m hd => h.first d m (Nat.le_trans hle hd)⟩
  · intro h
    exact ⟨h.run, Nat.le_trans hle h.le, h.fits,
      fun d m hd hrun hm => h.first d m (hpassed d m hd hrun hm) hrun hm⟩

/-- **The search finds the end of the first run that is exhausted**, less `n` backticks.  It must
not begin inside a run. -/
theorem closing_eq_some_iff (hn : 0 < n)
    (hbegin : IsTick text (base + pos) → ∀ j, j + 1 = base + pos → ¬ IsTick text j) :
    closing n 0 pos (text.drop (base + pos)) = some j ↔
      ∃ c len, IsFirstRun text (Exhausts n) (base + pos) c len ∧ base + j + n = c + len := by
  induction hlength : text.length - (base + pos) using Nat.strongRecOn generalizing pos with
  | _ m ih =>
      rcases Nat.lt_or_ge (base + pos) text.length with hlt | hge
      · rw [closing_eq hn]
        by_cases hfits : Exhausts n (ticks (text.drop (base + pos)))
        · have hpos : 0 < ticks (text.drop (base + pos)) := Nat.lt_of_lt_of_le hn hfits.le
          have hhere := isRun_ticks hpos (hbegin (isTick_of_lt_ticks (j := 0) hpos))
          have hle := hfits.le
          rw [if_pos hfits, Option.some.injEq]
          constructor
          · rintro rfl
            exact ⟨base + pos, _, ⟨hhere, Nat.le_refl _, hfits, fun _ _ hd _ _ => hd⟩, by omega⟩
          · rintro ⟨c, len, hfirst, hstop⟩
            obtain rfl : c = base + pos :=
              Nat.le_antisymm (hfirst.first _ _ (Nat.le_refl _) hhere hfits) hfirst.le
            obtain rfl := hfirst.run.length_eq hhere
            omega
        · -- no run that is exhausted begins before the place where the search goes on
          have hpassed : ∀ d m, base + pos ≤ d → IsRun (IsTick text) d m → Exhausts n m →
              base + pos + ticks (text.drop (base + pos)) + 1 ≤ d := by
            intro d m hd hrun hm
            rcases hrun.eq_or_lt hd hbegin with ⟨-, rfl⟩ | hlt
            · exact absurd hm hfits
            · exact hlt
          have hnext : base + pos + (ticks (text.drop (base + pos)) + 1) =
              base + (pos + ticks (text.drop (base + pos)) + 1) := by omega
          rw [if_neg hfits, List.drop_drop, hnext, ih _ (by omega) (fun _ j hj => ?_) rfl]
          · simp only [isFirstRun_iff (by omega) hpassed, Nat.add_assoc]
          · obtain rfl : j = base + pos + ticks (text.drop (base + pos)) := by omega
            exact not_isTick_ticks text (base + pos)
      · rw [List.drop_eq_nil_of_le hge]
        refine iff_of_false (by simp [closing]) ?_
        rintro ⟨c, len, hfirst, -⟩
        have := hfirst.run.start.lt_length
        have := hfirst.le
        omega

/-! ### What the scan finds -/

/-- What opens a span, and which runs may close it: from place `start` on, `n` backticks open it,
and the first run behind them that may close it is the one of `len` backticks at place `c`. -/
structure IsSpan (closes : Nat → Nat → Prop) (text : List Char) (start n c len : Nat) : Prop where
  opening : IsRun (IsOpenTick text) start n
  closing : IsFirstRun text (closes n) (start + n) c len

theorem isOpenTick_iff {front rest : List Char} {x : Char} :
    IsOpenTick (front ++ x :: rest) front.length ↔ x = '`' ∧ front.getLast? ≠ some '\\' := by
  have hhere : IsTick (front ++ x :: rest) front.length ↔ x = '`' := by simp [IsTick]
  rw [IsOpenTick, hhere]
  refine and_congr_right fun _ => ?_
  rcases List.eq_nil_or_concat front with rfl | ⟨front, y, rfl⟩
  · simp
  · simp

/-- The backticks from a place on are a maximal run of such as can open a span, if the first one can
and none comes before. -/
theorem isRun_openTick (hopen : IsOpenTick text i)
    (hbefore : ∀ j, j + 1 = i → ¬ IsOpenTick text j) :
    IsRun (IsOpenTick text) i (ticks (text.drop i)) := by
  have hbehind := not_isTick_ticks text i
  refine ⟨?_, fun k hk => ⟨isTick_of_lt_ticks hk, fun j hj => ?_⟩, fun h => hbehind h.1, hbefore⟩
  · refine Nat.pos_of_ne_zero fun hzero => ?_
    rw [hzero] at hbehind
    exact hbehind hopen.1
  · cases k with
    | zero => exact hopen.2 j hj
    | succ k =>
        -- a backtick comes before, which is no backslash
        obtain rfl : j = i + k := by omega
        have htick : text[i + k]? = some '`' := isTick_of_lt_ticks (by omega)
        rw [htick]
        decide

theorem IsRun.ticks_eq (h : IsRun (IsOpenTick text) i n) : ticks (text.drop i) = n := by
  refine ticks_drop_eq (fun k hk => (h.inside k hk).1) fun htick => h.behind ⟨htick, fun j hj => ?_⟩
  have hlast : IsTick text (i + (n - 1)) := (h.inside _ (Nat.sub_lt h.pos Nat.one_pos)).1
  have hpos := h.pos
  obtain rfl : j = i + (n - 1) := by omega
  rw [hlast]
  decide

section Read

variable {front rest : List Char} {x : Char} {r : Bool × Nat}

theorem isOpenTick_of_read (h : read front.getLast? (x :: rest) = some r) :
    IsOpenTick (front ++ x :: rest) front.length := by
  unfold read at h
  split at h
  · rename_i tail hcons
    split at h
    · cases h
    · rename_i hprev
      exact isOpenTick_iff.2 ⟨(List.cons.inj hcons).1, hprev⟩
  · cases h

/-- What is read at a backtick that can open a span, if `n` backticks are there. -/
theorem read_of_isOpenTick (hopen : IsOpenTick (front ++ x :: rest) front.length)
    (hn : ticks (x :: rest) = n) :
    read front.getLast? (x :: rest) =
      match closing n 0 n ((front ++ x :: rest).drop (front.length + n)) with
      | some j => some (true, j + n)
      | none => some (false, n) := by
  obtain ⟨rfl, hprev⟩ := isOpenTick_iff.1 hopen
  subst hn
  rw [← List.drop_drop, List.drop_left]
  exact if_neg hprev

end Read

/-- What the scan finds: a code span, or a run of backticks that nothing closes. -/
structure IsPiece (text : List Char) (m : Found Bool) : Prop where
  isOpen : IsOpenTick text m.start
  closed : m.value = true → ∃ c len, m.stop = c + len ∧
    IsFirstRun text (Exhausts (ticks (text.drop m.start)))
      (m.start + ticks (text.drop m.start)) c len
  unclosed : m.value = false → m.stop = m.start + ticks (text.drop m.start) ∧
    ∀ c len, ¬ IsFirstRun text (Exhausts (ticks (text.drop m.start)))
      (m.start + ticks (text.drop m.start)) c len

theorem isPiece_of_mem_findAll {m : Found Bool} (hm : m ∈ findAll read text) : IsPiece text m := by
  obtain ⟨front, x, rest, k, rfl, hstart, hread, hstop⟩ := (mem_findAll_iff.1 hm).1
  have hopen := isOpenTick_of_read hread
  have hdrop : (front ++ x :: rest).drop front.length = x :: rest := List.drop_left
  generalize hn : ticks (x :: rest) = n
  have hpos : 0 < n := by
    rw [← hn, (isOpenTick_iff.1 hopen).1, ticks_cons_tick]
    exact Nat.succ_pos _
  have hbehind : ¬ IsTick (front ++ x :: rest) (front.length + n) := by
    have := not_isTick_ticks (front ++ x :: rest) front.length
    rwa [hdrop, hn] at this
  have hclosing (j : Nat) := closing_eq_some_iff (j := j) hpos fun h => absurd h hbehind
  rw [read_of_isOpenTick hopen hn] at hread
  cases hfound : closing n 0 n ((front ++ x :: rest).drop (front.length + n)) with
  | some j =>
      rw [hfound] at hread
      simp only [Option.some.injEq, Prod.mk.injEq] at hread
      obtain ⟨c, len, hfirst, hend⟩ := (hclosing j).1 hfound
      refine ⟨hstart ▸ hopen, fun _ => ?_, fun hfalse => ?_⟩
      · rw [← hstart, hdrop, hn]
        exact ⟨c, len, by omega, hfirst⟩
      · cases hread.1.trans hfalse
  | none =>
      rw [hfound] at hread
      simp only [Option.some.injEq, Prod.mk.injEq] at hread
      refine ⟨hstart ▸ hopen, fun htrue => ?_, fun _ => ?_⟩
      · cases hread.1.trans htrue
      · rw [← hstart, hdrop, hn]
        refine ⟨by omega, fun c len hfirst => ?_⟩
        have hle := hfirst.le
        have hlen := hfirst.fits.le
        have hsome := (hclosing (c + len - n - front.length)).2 ⟨c, len, hfirst, by omega⟩
        cases hfound.symm.trans hsome

/-- Behind what the scan finds there is no backtick. -/
theorem IsPiece.not_isTick_stop {m : Found Bool} (h : IsPiece text m) : ¬ IsTick text m.stop := by
  cases hvalue : m.value with
  | true =>
      obtain ⟨c, len, hstop, hfirst⟩ := h.closed hvalue
      rw [hstop]
      exact hfirst.run.behind
  | false =>
      rw [(h.unclosed hvalue).1]
      exact not_isTick_ticks text m.start

/-- Something is found at a backtick that can open a span, if nothing found before it reaches over
it. -/
theorem exists_start_eq (hopen : IsOpenTick text i)
    (hbefore : ∀ o ∈ findAll read text, o.start < i → o.stop ≤ i) :
    ∃ m ∈ findAll read text, m.start = i := by
  obtain ⟨front, x, rest, rfl, rfl⟩ := exists_append_cons_of_lt hopen.1.lt_length
  have hread := read_of_isOpenTick hopen rfl
  cases hfound : read front.getLast? (x :: rest) with
  | none =>
      rw [hfound] at hread
      split at hread <;> cases hread
  | some r =>
      exact ⟨⟨front.length, front.length + max r.2 1, r.1⟩,
        mem_findAll_iff.2 ⟨⟨front, x, rest, r.2, rfl, rfl, hfound, rfl⟩, hbefore⟩, rfl⟩

/-- No backtick that can open a span stands before what the scan finds. -/
theorem not_isOpenTick_of_mem_findAll {m : Found Bool} (hm : m ∈ findAll read text)
    (hj : j + 1 = m.start) : ¬ IsOpenTick text j := by
  intro hopen
  have hstart := (isPiece_of_mem_findAll hm).isOpen.1
  -- a piece that reaches up to the backtick would end there, where there is another backtick
  have hover : ∀ o ∈ findAll read text, o.start ≤ j → o.stop ≤ j := by
    intro o ho hle
    have hstop := (mem_findAll_iff.1 hm).2 o ho (by omega)
    have hne : o.stop ≠ m.start := by
      intro heq
      exact (isPiece_of_mem_findAll ho).not_isTick_stop (heq ▸ hstart)
    omega
  obtain ⟨o, ho, rfl⟩ := exists_start_eq hopen fun o ho hlt => hover o ho (Nat.le_of_lt hlt)
  have := findAll_start_lt_stop read ho
  have := hover o ho (Nat.le_refl _)
  omega

/-- A span is closed by a run of its own length exactly if the first run that is exhausted has this
length.  A longer one ends in the backticks that close the span, but they do not stand alone. -/
theorem IsSpan.matches_iff (h : IsSpan Exhausts text i n c len) :
    (∃ d, IsSpan Matches text i n d n ∧ d + n = c + len) ↔ len = n := by
  constructor
  · rintro ⟨d, hspan, hstop⟩
    rcases Nat.lt_trichotomy c d with hlt | rfl | hlt
    · have := h.closing.run.lt_start hspan.closing.run hlt
      omega
    · omega
    · have := hspan.closing.run.lt_start h.closing.run hlt
      omega
  · rintro rfl
    refine ⟨c, ⟨h.opening, h.closing.run, h.closing.le, rfl, fun d m hd hrun hm => ?_⟩, rfl⟩
    obtain rfl : m = len := hm
    exact h.closing.first d m hd hrun (exhausts_self m)

end CodeSpan

/-! ### The code spans of a line -/

open CodeSpan

variable {text : List Char} {start stop n c len : Nat}

theorem mem_codeSpans_iff : (start, stop) ∈ codeSpans text ↔
    ∃ m ∈ findAll read text, m.value = true ∧ m.start = start ∧ m.stop = stop := by
  rw [codeSpans, List.mem_filterMap]
  refine exists_congr fun m => and_congr_right fun _ => ?_
  cases m.value <;> simp

theorem codeSpans_pairwise (text : List Char) :
    (codeSpans text).Pairwise fun s t => s.2 ≤ t.1 := by
  rw [codeSpans, List.pairwise_filterMap]
  refine (findAll_pairwise read text).imp ?_
  intro a b hab s hs t ht
  split at hs
  · cases hs
    split at ht
    · cases ht
      exact hab
    · cases ht
  · cases hs

/-- A code span is opened and closed by runs of backticks. -/
theorem isSpan_of_mem_codeSpans (h : (start, stop) ∈ codeSpans text) :
    ∃ n c len, IsSpan Exhausts text start n c len ∧ stop = c + len := by
  obtain ⟨m, hm, hvalue, rfl, rfl⟩ := mem_codeSpans_iff.1 h
  have hpiece := isPiece_of_mem_findAll hm
  obtain ⟨c, len, hstop, hfirst⟩ := hpiece.closed hvalue
  have hopening := isRun_openTick hpiece.isOpen fun _ hj => not_isOpenTick_of_mem_findAll hm hj
  exact ⟨_, c, len, ⟨hopening, hfirst⟩, hstop⟩

/-- What is opened and closed by runs of backticks is a code span, if no other one reaches over its
start. -/
theorem mem_codeSpans_of_isSpan (h : IsSpan Exhausts text start n c len)
    (hbefore : ∀ s ∈ codeSpans text, s.1 < start → s.2 ≤ start) :
    (start, c + len) ∈ codeSpans text := by
  obtain ⟨m, hm, rfl⟩ := exists_start_eq h.opening.start fun o ho hlt => by
    cases hvalue : o.value with
    | true => exact hbefore (o.start, o.stop) (mem_codeSpans_iff.2 ⟨o, ho, hvalue, rfl, rfl⟩) hlt
    | false =>
        have hpiece := isPiece_of_mem_findAll ho
        have hrun := isRun_openTick hpiece.isOpen fun _ hj => not_isOpenTick_of_mem_findAll ho hj
        rw [(hpiece.unclosed hvalue).1]
        exact Nat.le_of_lt (hrun.lt_start h.opening hlt)
  have hpiece := isPiece_of_mem_findAll hm
  have hclosing := h.closing
  rw [← h.opening.ticks_eq] at hclosing
  cases hvalue : m.value with
  | true =>
      obtain ⟨d, k, hstop, hfirst⟩ := hpiece.closed hvalue
      obtain ⟨rfl, rfl⟩ := hclosing.eq hfirst
      exact mem_codeSpans_iff.2 ⟨m, hm, hvalue, rfl, hstop⟩
  | false => exact absurd hclosing ((hpiece.unclosed hvalue).2 c len)

/-- **The code spans of a line** come in order, do not overlap and lie on the line.  They are opened
by a run of backticks of which the first one is not escaped, and closed by the first run behind it
that is exhausted; and whatever is opened and closed like this is a code span, unless another one
reaches over its start.  The backticks that close a span are as many as opened it, and they stand
alone exactly if the run that is exhausted has no more. -/
theorem codeSpans_delimited (text : List Char) :
    (codeSpans text).Pairwise (fun s t => s.2 ≤ t.1) ∧
      (∀ s ∈ codeSpans text, s.1 < s.2 ∧ s.2 ≤ text.length) ∧
      (∀ start stop, (start, stop) ∈ codeSpans text ↔
        (∃ n c len, IsSpan Exhausts text start n c len ∧ stop = c + len) ∧
          ∀ s ∈ codeSpans text, s.1 < start → s.2 ≤ start) ∧
      ∀ start n c len, IsSpan Exhausts text start n c len →
        ((∃ d, IsSpan Matches text start n d n ∧ d + n = c + len) ↔ len = n) := by
  refine ⟨codeSpans_pairwise text, ?_, fun start stop => ⟨fun h => ?_, ?_⟩,
    fun _ _ _ _ h => h.matches_iff⟩
  · rintro ⟨start, stop⟩ hs
    obtain ⟨n, c, len, hspan, rfl⟩ := isSpan_of_mem_codeSpans hs
    have hopening := hspan.opening.pos
    have hle := hspan.closing.le
    have hpos := hspan.closing.run.pos
    have hlast := (hspan.closing.run.inside (len - 1) (by omega)).lt_length
    exact ⟨by simp only; omega, by simp only; omega⟩
  · refine ⟨isSpan_of_mem_codeSpans h, ?_⟩
    rintro ⟨first, last⟩ hs hlt
    obtain ⟨o, ho, -, rfl, rfl⟩ := mem_codeSpans_iff.1 hs
    obtain ⟨m, hm, -, rfl, rfl⟩ := mem_codeSpans_iff.1 h
    exact stop_le_start_of_mem_findAll hm ho hlt
  · rintro ⟨⟨n, c, len, hspan, rfl⟩, hbefore⟩
    exact mem_codeSpans_of_isSpan hspan hbefore

/-- **A span can be closed inside a longer run**, here by the last one of three backticks. -/
theorem not_codeSpans_matched :
    ¬ ∀ text : List Char, (codeSpans text).Pairwise (fun s t => s.2 ≤ t.1) ∧
      ∀ s ∈ codeSpans text, s.1 < s.2 ∧ s.2 ≤ text.length ∧
        ∃ n c len, IsSpan Matches text s.1 n c len ∧ s.2 = c + len := by
  intro h
  have hmem : (0, 5) ∈ codeSpans "`a``` b`".toList := by decide
  obtain ⟨-, -, n, c, len, hspan, hstop⟩ := (h "`a``` b`".toList).2 _ hmem
  have hopening : n = 1 := by
    have hticks : ticks ("`a``` b`".toList.drop 0) = n := hspan.opening.ticks_eq
    exact hticks.symm.trans (by decide)
  have hlen : len = n := hspan.closing.fits
  obtain rfl : c = 4 := by omega
  exact hspan.closing.run.before 3 rfl (by decide : "`a``` b`".toList[3]? = some '`')

end Citations

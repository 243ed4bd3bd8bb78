/-
**What a scan finds, and what it passes over.**

A scan finds what can be read at a place, unless a piece that it has found before reaches over the
place.  A reader that declines at every character of a part of a text finds nothing in it, whether
the part comes before what it does read or behind it.

Main definitions:

* `Citations.Text.Declines` — whether a reader declines at a character.

Main results:

* `Citations.Text.findFrom_append` — a part at the end in which nothing is found does not matter;
* `Citations.Text.findFrom_append_of_declines` — a part at the start is passed over;
* `Citations.Text.mem_findAll_of_read` — the first piece that can be read is found;
* `Citations.Text.exists_read_of_mem_findAll` — what is found was read at its place;
* `Citations.Text.mem_findAll_iff` — **what a scan finds**.
-/

import Citations.Text.Scan

set_option relaxedAutoImplicit false
set_option autoImplicit false

namespace Citations.Text

variable {α : Type} {read : Reader α} {m : Found α}

/-- A reader declines at a character, wherever it stands. -/
def Declines (read : Reader α) (c : Char) : Prop := ∀ prev rest, read prev (c :: rest) = none

/-- A part at the end of a text does not matter if no piece is found in it and if no piece before it
is read differently. -/
theorem findFrom_append {tail : List Char}
    (hread : ∀ prev c cs, read prev (c :: cs ++ tail) = read prev (c :: cs))
    (htail : ∀ prev pos skip, findFrom read prev pos skip tail = []) (cs : List Char)
    (prev : Option Char) (pos skip : Nat) :
    findFrom read prev pos skip (cs ++ tail) = findFrom read prev pos skip cs := by
  induction cs generalizing prev pos skip with
  | nil =>
      rw [List.nil_append, htail]
      cases skip <;> rfl
  | cons c cs ih =>
      cases skip with
      | succ skip => exact ih _ _ _
      | zero =>
          have hhere := hread prev c cs
          rw [List.cons_append] at hhere
          simp only [List.cons_append, findFrom, hhere, ih]

theorem findFrom_eq_nil {cs : List Char} (h : ∀ c ∈ cs, Declines read c)
    (prev : Option Char) (pos skip : Nat) : findFrom read prev pos skip cs = [] := by
  induction cs generalizing prev pos skip with
  | nil => cases skip <;> rfl
  | cons c cs ih =>
      have hrest := ih fun c' hc' => h c' (List.mem_cons_of_mem _ hc')
      cases skip with
      | succ skip => exact hrest _ _ _
      | zero =>
          have hhere := h c (List.mem_cons_self ..) prev cs
          simp only [findFrom, hhere, hrest]

/-- A part at the start of a text is passed over if the reader declines in it. -/
theorem findFrom_append_of_declines {before : List Char}
    (h : ∀ c ∈ before, Declines read c) (prev : Option Char) (pos : Nat) (cs : List Char) :
    findFrom read prev pos 0 (before ++ cs) =
      findFrom read (before.getLast?.or prev) (pos + before.length) 0 cs := by
  induction before generalizing prev pos with
  | nil => rfl
  | cons c before ih =>
      have hrest := ih (fun c' hc' => h c' (List.mem_cons_of_mem _ hc')) (some c) (pos + 1)
      have hlast : (c :: before).getLast?.or prev = before.getLast?.or (some c) := by
        rw [List.getLast?_cons]
        cases before.getLast? <;> rfl
      rw [List.cons_append, findFrom, h c (List.mem_cons_self ..), hlast, List.length_cons,
        Nat.add_comm before.length, ← Nat.add_assoc]
      exact hrest

/-- **The first piece that can be read is found.** -/
theorem mem_findAll_of_read {before : List Char}
    (h : ∀ c ∈ before, Declines read c) {c : Char} {cs : List Char}
    {a : α} {n : Nat} (hread : read before.getLast? (c :: cs) = some (a, n)) :
    ⟨before.length, before.length + max n 1, a⟩ ∈ findAll read (before ++ c :: cs) := by
  rw [findAll, findFrom_append_of_declines h, Option.or_none, Nat.zero_add, findFrom, hread]
  exact List.mem_cons_self ..

/-- What is found lies behind the part at the start that is passed over. -/
theorem length_le_start_of_mem_findAll {before : List Char}
    (h : ∀ c ∈ before, Declines read c) {cs : List Char} {m : Found α}
    (hm : m ∈ findAll read (before ++ cs)) : before.length ≤ m.start := by
  rw [findAll, findFrom_append_of_declines h, Nat.zero_add] at hm
  exact (le_start_of_mem_findFrom read cs _ _ 0 hm).1

theorem start_lt_of_mem_findFrom {m : Found α} {cs : List Char}
    {prev : Option Char} {pos skip : Nat} (h : m ∈ findFrom read prev pos skip cs) :
    m.start < pos + cs.length := by
  induction cs generalizing prev pos skip with
  | nil => simp [findFrom] at h
  | cons c cs ih =>
      have hrest {skip : Nat} (h : m ∈ findFrom read (some c) (pos + 1) skip cs) :
          m.start < pos + (c :: cs).length := by
        have := ih h
        rw [List.length_cons]
        omega
      cases skip with
      | succ skip => exact hrest (by simpa [findFrom] using h)
      | zero =>
          simp only [findFrom] at h
          split at h
          · rcases List.mem_cons.1 h with rfl | h
            · exact Nat.lt_add_of_pos_right (Nat.succ_pos _)
            · exact hrest h
          · exact hrest h

/-! ### What is found was read -/

theorem exists_read_of_mem_findFrom (before : List Char) {cs : List Char} {skip : Nat}
    (h : m ∈ findFrom read before.getLast? before.length skip cs) :
    ∃ front rest n, before ++ cs = front ++ rest ∧ front.length = m.start ∧
      read front.getLast? rest = some (m.value, n) ∧ m.stop = m.start + max n 1 := by
  induction cs generalizing before skip with
  | nil => simp [findFrom] at h
  | cons c cs ih =>
      have hlast : (before ++ [c]).getLast? = some c := by simp
      have hlength : (before ++ [c]).length = before.length + 1 := by simp
      have hrest {skip : Nat} (h : m ∈ findFrom read (some c) (before.length + 1) skip cs) :
          ∃ front rest n, before ++ c :: cs = front ++ rest ∧ front.length = m.start ∧
            read front.getLast? rest = some (m.value, n) ∧ m.stop = m.start + max n 1 := by
        rw [← hlast, ← hlength] at h
        simpa using ih _ h
      cases skip with
      | succ skip => exact hrest (by simpa [findFrom] using h)
      | zero =>
          simp only [findFrom] at h
          cases hread : read before.getLast? (c :: cs) with
          | none =>
              rw [hread] at h
              exact hrest h
          | some r =>
              rw [hread] at h
              rcases List.mem_cons.1 h with rfl | h
              · exact ⟨before, c :: cs, r.2, rfl, rfl, hread, rfl⟩
              · exact hrest h

/-- What is found was read at its place. -/
theorem exists_read_of_mem_findAll {cs : List Char} (h : m ∈ findAll read cs) :
    ∃ front rest n, cs = front ++ rest ∧ front.length = m.start ∧
      read front.getLast? rest = some (m.value, n) ∧ m.stop = m.start + max n 1 :=
  exists_read_of_mem_findFrom [] h

/-- What is found was read from the text behind its place. -/
theorem exists_read_drop_of_mem_findAll {cs : List Char} (h : m ∈ findAll read cs) :
    ∃ prev n, read prev (cs.drop m.start) = some (m.value, n) := by
  obtain ⟨front, rest, n, rfl, hstart, hread, -⟩ := exists_read_of_mem_findAll h
  exact ⟨_, n, by rwa [← hstart, List.drop_left]⟩

/-- What can be read at a place is found there, if no piece that is found before reaches over it. -/
theorem mem_findFrom_of_read {front : List Char} {c : Char} {cs : List Char} {a : α} {n : Nat}
    {prev : Option Char} {pos skip : Nat}
    (hread : read (front.getLast?.or prev) (c :: cs) = some (a, n)) (hskip : skip ≤ front.length)
    (hbefore : ∀ m ∈ findFrom read prev pos skip (front ++ c :: cs),
      m.start < pos + front.length → m.stop ≤ pos + front.length) :
    ⟨pos + front.length, pos + front.length + max n 1, a⟩ ∈
      findFrom read prev pos skip (front ++ c :: cs) := by
  induction front generalizing prev pos skip with
  | nil =>
      obtain rfl : skip = 0 := Nat.le_zero.1 hskip
      have hhere : read prev (c :: cs) = some (a, n) := hread
      simp [findFrom, hhere]
  | cons x front ih =>
      have hlast : (x :: front).getLast?.or prev = front.getLast?.or (some x) := by
        rw [List.getLast?_cons]
        cases front.getLast? <;> rfl
      have hplace : pos + (x :: front).length = pos + 1 + front.length := by
        rw [List.length_cons]
        omega
      rw [hlast] at hread
      rw [hplace] at hbefore ⊢
      cases skip with
      | succ skip => exact ih hread (Nat.le_of_succ_le_succ hskip) hbefore
      | zero =>
          simp only [List.cons_append, findFrom] at hbefore ⊢
          cases hhere : read prev (x :: (front ++ c :: cs)) with
          | none =>
              rw [hhere] at hbefore
              exact ih hread (Nat.zero_le _) hbefore
          | some r =>
              rw [hhere] at hbefore
              have hstop := hbefore _ (List.mem_cons_self ..) (by simp only; omega)
              simp only at hstop
              exact List.mem_cons_of_mem _ (ih hread (by omega) fun m hm =>
                hbefore m (List.mem_cons_of_mem _ hm))

/-- Of two pieces, the one that starts first ends before the other one starts. -/
theorem stop_le_start_of_mem_findAll {cs : List Char} {m o : Found α} (hm : m ∈ findAll read cs)
    (ho : o ∈ findAll read cs) (hlt : o.start < m.start) : o.stop ≤ m.start := by
  have hforth : (findAll read cs).Pairwise fun a b => a.start < b.start → a.stop ≤ b.start := by
    refine (findAll_pairwise read cs).imp ?_
    intro a b hab _
    exact hab
  have hback : (findAll read cs).Pairwise
      (flip fun a b : Found α => a.start < b.start → a.stop ≤ b.start) := by
    refine (findAll_pairwise read cs).imp_of_mem ?_
    intro a b ha _ hab hba
    have := findAll_start_lt_stop read ha
    omega
  exact List.Pairwise.forall_of_forall_of_flip (fun x _ hx => absurd hx (Nat.lt_irrefl _)) hforth
    hback ho hm hlt

/-- **What is found** is what can be read at its place, as long as no piece that is found before
reaches over the place. -/
theorem mem_findAll_iff {cs : List Char} {m : Found α} :
    m ∈ findAll read cs ↔
      (∃ front c rest n, cs = front ++ c :: rest ∧ front.length = m.start ∧
        read front.getLast? (c :: rest) = some (m.value, n) ∧ m.stop = m.start + max n 1) ∧
      ∀ o ∈ findAll read cs, o.start < m.start → o.stop ≤ m.start := by
  constructor
  · intro hm
    refine ⟨?_, fun o ho => stop_le_start_of_mem_findAll hm ho⟩
    obtain ⟨front, rest, n, rfl, hstart, hread, hstop⟩ := exists_read_of_mem_findAll hm
    cases rest with
    | nil =>
        have hlt := start_lt_of_mem_findFrom hm
        rw [List.append_nil, hstart] at hlt
        omega
    | cons c rest => exact ⟨front, c, rest, n, rfl, hstart, hread, hstop⟩
  · rintro ⟨⟨front, c, rest, n, rfl, hstart, hread, hstop⟩, hbefore⟩
    have hfound : ⟨0 + front.length, 0 + front.length + max n 1, m.value⟩ ∈
        findAll read (front ++ c :: rest) := by
      refine mem_findFrom_of_read (by rwa [Option.or_none]) (Nat.zero_le _) fun o ho hlt => ?_
      rw [Nat.zero_add, hstart] at hlt ⊢
      exact hbefore o ho hlt
    rwa [Nat.zero_add, hstart, ← hstop] at hfound

/-! ### Places and slices -/

/-- Every place in a list parts it. -/
theorem exists_append_cons_of_lt {xs : List α} {i : Nat} (h : i < xs.length) :
    ∃ front x rest, xs = front ++ x :: rest ∧ front.length = i := by
  refine ⟨xs.take i, xs[i], xs.drop (i + 1), ?_, List.length_take_of_le (Nat.le_of_lt h)⟩
  rw [List.getElem_cons_drop, List.take_append_drop]

theorem slice_append (xs ys : List α) {start stop : Nat} (h : stop ≤ xs.length) :
    slice (xs ++ ys) start stop = slice xs start stop := by
  rcases Nat.lt_or_ge stop start with hlt | hge
  · simp [slice, Nat.sub_eq_zero_of_le (Nat.le_of_lt hlt)]
  · rw [slice, List.drop_append_of_le_length (Nat.le_trans hge h), List.take_append_of_le_length]
    · rfl
    · rw [List.length_drop]
      omega

theorem slice_isInfix (xs : List α) (start stop : Nat) : slice xs start stop <:+: xs :=
  (List.take_prefix _ _).isInfix.trans (List.drop_suffix _ _).isInfix

/-- What is at a place is among the elements from one place up to another that is behind it. -/
theorem mem_slice {xs : List α} {x : α} {i start stop : Nat} (hx : xs[i]? = some x)
    (hstart : start ≤ i) (hstop : i < stop) : x ∈ slice xs start stop := by
  refine List.mem_of_getElem? (i := i - start) ?_
  rw [slice, List.getElem?_take_of_lt (by omega), List.getElem?_drop, Nat.add_sub_cancel' hstart,
    hx]

end Citations.Text

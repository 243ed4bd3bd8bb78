/-
**The entries of a cache are its loads that have not failed.**

A load gets its entry when it is agreed upon, and loses it in the same step in which it fails.  In
between nothing touches the entry, so at any time the entries are exactly the loads that have not
failed, and each key has at most one of them.  This invariant is kept by all that changes a cache,
and says what comes of the entries then.

Main definitions:

* `Citations.Progress.hasBegun`, `Citations.Progress.hasFailed` — whether a load has begun, and
  whether it has come to an end without a value;
* `Citations.Cache.Consistent` — **the invariant**;
* `Citations.Cache.kept?` — the value that a key stands for.

Main results:

* `Citations.Cache.Consistent.join`, `Citations.Cache.Consistent.note`,
  `Citations.Cache.Consistent.finish` — the invariant is kept;
* `Citations.Cache.Consistent.mem_entries_finish_error` — **a load that fails gives up its own entry
  and no other**;
* `Citations.Cache.Consistent.resolve_snd`, `Citations.Cache.Consistent.kept?_resolve` — what
  somebody hears who waits for the outcome, and what is remembered of it.
-/

import Citations.Cache
import Mathlib.Data.List.Basic
import Mathlib.Data.List.Nodup

set_option relaxedAutoImplicit false
set_option autoImplicit false

namespace Citations

variable {ε α : Type}

/-- Whether a load has begun. -/
def Progress.hasBegun : Progress ε α → Bool
  | .waiting => false
  | _ => true

/-- Whether a load has come to an end without a value. -/
def Progress.hasFailed : Progress ε α → Bool
  | .done (.error _) => true
  | _ => false

namespace Cache

/-! ### Entries as a table -/

theorem mem_entries_of_entryOf? {c : Cache ε α} {key : String} {id : Nat}
    (h : c.entryOf? key = some id) : (key, id) ∈ c.entries := by
  obtain ⟨⟨k, i⟩, hfind, rfl⟩ := Option.map_eq_some_iff.1 h
  have hk : k = key := by simpa using List.find?_some hfind
  subst hk
  exact List.mem_of_find?_eq_some hfind

theorem entryOf?_eq_none_iff {c : Cache ε α} {key : String} :
    c.entryOf? key = none ↔ ∀ id, (key, id) ∉ c.entries := by
  rw [entryOf?, Option.map_eq_none_iff, List.find?_eq_none]
  constructor
  · intro h id hmem
    exact h _ hmem (by simp)
  · rintro h ⟨k, id⟩ hmem hk
    have hk : k = key := by simpa using hk
    subst hk
    exact h id hmem

/-- A key that occurs once stands for the load it occurs with. -/
theorem entryOf?_of_mem_entries {c : Cache ε α} (hkeys : (c.entries.map Prod.fst).Nodup)
    {key : String} {id : Nat} (h : (key, id) ∈ c.entries) : c.entryOf? key = some id := by
  cases hc : c.entryOf? key with
  | none => exact absurd h (entryOf?_eq_none_iff.1 hc id)
  | some j =>
      have hj := mem_entries_of_entryOf? hc
      have hpair := (List.inj_on_of_nodup_map hkeys) hj h rfl
      exact congrArg some (Prod.ext_iff.1 hpair).2

/-- Asking for one key leaves the entries of the others as they are. -/
theorem entryOf?_join_of_ne (c : Cache ε α) {key k : String} (h : k ≠ key) :
    (c.join key).1.entryOf? k = c.entryOf? k := by
  unfold join
  cases c.entryOf? key with
  | some id => rfl
  | none => simp [entryOf?, List.find?_append, Ne.symm h]

/-! ### Loads -/

theorem progress?_eq_some_iff {c : Cache ε α} {id : Nat} {p : Progress ε α} :
    c.progress? id = some p ↔ ∃ key, c.loads[id]? = some ⟨key, p⟩ := by
  rw [progress?, Option.map_eq_some_iff]
  constructor
  · rintro ⟨⟨key, q⟩, hl, rfl⟩
    exact ⟨key, hl⟩
  · rintro ⟨key, hl⟩
    exact ⟨_, hl, rfl⟩

theorem outcome?_eq_some_iff {c : Cache ε α} {id : Nat} {r : Except ε α} :
    c.outcome? id = some r ↔ ∃ key, c.loads[id]? = some ⟨key, .done r⟩ := by
  rw [outcome?, Option.bind_eq_some_iff]
  constructor
  · rintro ⟨p, hp, hr⟩
    obtain ⟨key, hl⟩ := progress?_eq_some_iff.1 hp
    cases p with
    | waiting => cases hr
    | running => cases hr
    | done o => cases hr; exact ⟨key, hl⟩
  · rintro ⟨key, hl⟩
    exact ⟨_, progress?_eq_some_iff.2 ⟨key, hl⟩, rfl⟩

/-- Recording how far a load has come changes that load only. -/
theorem loads_note {c : Cache ε α} {id : Nat} {key : String} {p : Progress ε α}
    (h : c.loads[id]? = some ⟨key, p⟩) (q : Progress ε α) (j : Nat) :
    (c.note id q).loads[j]? = if j = id then some ⟨key, q⟩ else c.loads[j]? := by
  rw [note, List.getElem?_modify]
  by_cases hj : j = id
  · subst hj
    simp [h]
  · simp [hj, Ne.symm hj]

@[simp] theorem entries_note (c : Cache ε α) (id : Nat) (p : Progress ε α) :
    (c.note id p).entries = c.entries := rfl

@[simp] theorem loads_evict (c : Cache ε α) (id : Nat) : (c.evict id).loads = c.loads := by
  unfold evict
  split
  · rfl
  · split <;> rfl

/-- The end of a load changes that load only. -/
theorem loads_finish {c : Cache ε α} {id : Nat} {key : String} {p : Progress ε α}
    (h : c.loads[id]? = some ⟨key, p⟩) (r : Except ε α) (j : Nat) :
    (c.finish id r).loads[j]? = if j = id then some ⟨key, .done r⟩ else c.loads[j]? := by
  cases r with
  | ok a => exact loads_note h _ j
  | error e =>
      have hl : (c.evict id).loads[id]? = some ⟨key, p⟩ := by rw [loads_evict, h]
      rw [finish, loads_note hl, loads_evict]

/-- A load that was agreed upon is still there when somebody has asked for a key. -/
theorem loads_join_of_loads {c : Cache ε α} {id : Nat} {l : Load ε α}
    (h : c.loads[id]? = some l) (key : String) : (c.join key).1.loads[id]? = some l := by
  unfold join
  cases c.entryOf? key with
  | some j => exact h
  | none =>
      have hlt : id < c.loads.length := (List.getElem?_eq_some_iff.1 h).1
      rw [List.getElem?_append_left hlt, h]

/-- At most one element is selected if no two places hold one that is. -/
theorem length_filter_le_one_of_index {β : Type} {select : β → Bool} {xs : List β}
    (h : ∀ (i j : Nat) (x y : β), xs[i]? = some x → xs[j]? = some y →
      select x = true → select y = true → i = j) : (xs.filter select).length ≤ 1 := by
  induction xs with
  | nil => simp
  | cons b bs ih =>
      by_cases hb : select b = true
      · have hnone : bs.filter select = [] := by
          rw [List.filter_eq_nil_iff]
          intro x hx hsel
          obtain ⟨i, hi⟩ := List.mem_iff_getElem?.1 hx
          have := h 0 (i + 1) b x rfl (by simpa using hi) hb hsel
          omega
        rw [List.filter_cons_of_pos hb, hnone]
        simp
      · rw [List.filter_cons_of_neg hb]
        refine ih fun i j x y hx hy hsx hsy => ?_
        have := h (i + 1) (j + 1) x y (by simpa using hx) (by simpa using hy) hsx hsy
        omega

/-! ### The invariant -/

/-- **The entries are the loads that have not failed**, at most one for each key. -/
structure Consistent (c : Cache ε α) : Prop where
  mem_entries_iff : ∀ key id, (key, id) ∈ c.entries ↔
    ∃ p, c.loads[id]? = some ⟨key, p⟩ ∧ p.hasFailed = false
  nodup_keys : (c.entries.map Prod.fst).Nodup

theorem consistent_empty : (empty : Cache ε α).Consistent :=
  ⟨fun key id => by simp [empty], by simp [empty]⟩

namespace Consistent

variable {c : Cache ε α}

/-- A key stands for the load of its own that has not failed. -/
theorem entryOf?_eq_some_iff (hc : c.Consistent) {key : String} {id : Nat} :
    c.entryOf? key = some id ↔ ∃ p, c.loads[id]? = some ⟨key, p⟩ ∧ p.hasFailed = false := by
  rw [← hc.mem_entries_iff]
  exact ⟨mem_entries_of_entryOf?, entryOf?_of_mem_entries hc.nodup_keys⟩

/-- Two loads of one key that have not failed are the same. -/
theorem eq_of_key (hc : c.Consistent) {key : String} {i j : Nat} {p q : Progress ε α}
    (hi : c.loads[i]? = some ⟨key, p⟩) (hp : p.hasFailed = false)
    (hj : c.loads[j]? = some ⟨key, q⟩) (hq : q.hasFailed = false) : i = j := by
  have h₁ := hc.entryOf?_eq_some_iff.2 ⟨p, hi, hp⟩
  have h₂ := hc.entryOf?_eq_some_iff.2 ⟨q, hj, hq⟩
  exact Option.some.inj (h₁.symm.trans h₂)

/-- A key has at most one load that has not failed. -/
theorem length_filter_le_one (hc : c.Consistent) (key : String) :
    (c.loads.filter fun l => l.key = key && !l.progress.hasFailed).length ≤ 1 := by
  refine length_filter_le_one_of_index fun i j l m hl hm hpl hpm => ?_
  obtain ⟨kl, pl⟩ := l
  obtain ⟨km, pm⟩ := m
  simp only [Bool.and_eq_true, decide_eq_true_eq, Bool.not_eq_true'] at hpl hpm
  obtain ⟨rfl, hpl⟩ := hpl
  obtain ⟨rfl, hpm⟩ := hpm
  exact hc.eq_of_key hl hpl hm hpm

/-- The load that somebody waits for who has asked for a key. -/
theorem loads_join (hc : c.Consistent) (key : String) :
    ∃ p, (c.join key).1.loads[(c.join key).2]? = some ⟨key, p⟩ ∧ p.hasFailed = false := by
  unfold Cache.join
  cases h : c.entryOf? key with
  | some id => exact hc.entryOf?_eq_some_iff.1 h
  | none => exact ⟨.waiting, by simp, rfl⟩

protected theorem join (hc : c.Consistent) (key : String) : (c.join key).1.Consistent := by
  unfold Cache.join
  cases h : c.entryOf? key with
  | some id => exact hc
  | none =>
      have hnew := Cache.entryOf?_eq_none_iff.1 h
      refine ⟨fun k i => ?_, ?_⟩
      · rw [List.mem_append, hc.mem_entries_iff, List.mem_singleton, List.getElem?_append]
        -- the new load has the next number, which no other entry has
        by_cases hi : i < c.loads.length
        · simp only [hi, if_true, Prod.mk.injEq]
          constructor
          · rintro (h | ⟨-, rfl⟩)
            · exact h
            · omega
          · exact Or.inl
        · have hout : c.loads[i]? = none := List.getElem?_eq_none (by omega)
          simp only [hi, if_false, hout, reduceCtorEq, false_and, exists_false, false_or,
            Prod.mk.injEq]
          constructor
          · rintro ⟨rfl, rfl⟩
            exact ⟨.waiting, by simp, rfl⟩
          · rintro ⟨p, hp, -⟩
            rw [List.getElem?_singleton] at hp
            split at hp
            · cases hp
              exact ⟨rfl, by omega⟩
            · cases hp
      · rw [List.map_append, List.nodup_append]
        refine ⟨hc.nodup_keys, by simp, ?_⟩
        rintro k hk k' hk' rfl
        obtain ⟨⟨k, i⟩, he, rfl⟩ := List.mem_map.1 hk
        have hk' : k = key := by simpa using hk'
        subst hk'
        exact hnew i he

/-- A load that has not failed may go on as long as it does not fail. -/
protected theorem note (hc : c.Consistent) {id : Nat} {key : String} {p q : Progress ε α}
    (h : c.loads[id]? = some ⟨key, p⟩) (hp : p.hasFailed = false) (hq : q.hasFailed = false) :
    (c.note id q).Consistent := by
  refine ⟨fun k i => ?_, hc.nodup_keys⟩
  rw [entries_note, hc.mem_entries_iff, loads_note h]
  by_cases hi : i = id
  · subst hi
    rw [h, if_pos rfl]
    constructor
    · rintro ⟨p', hp', -⟩
      cases hp'
      exact ⟨q, rfl, hq⟩
    · rintro ⟨q', hq', -⟩
      cases hq'
      exact ⟨p, rfl, hp⟩
  · rw [if_neg hi]

/-- What is left of the entries when a load gives up its own. -/
theorem mem_entries_evict (hc : c.Consistent) {id : Nat} {key : String} {p : Progress ε α}
    (h : c.loads[id]? = some ⟨key, p⟩) (hp : p.hasFailed = false) (e : String × Nat) :
    e ∈ (c.evict id).entries ↔ e ∈ c.entries ∧ e.2 ≠ id := by
  have hentry := hc.entryOf?_eq_some_iff.2 ⟨p, h, hp⟩
  have hown : (key, id) ∈ c.entries := mem_entries_of_entryOf? hentry
  obtain ⟨k, i⟩ := e
  rw [evict, h]
  simp only [hentry, if_true, List.mem_filter, ne_eq, decide_eq_true_eq]
  -- among the entries, having the key of the load and having its number are the same
  refine and_congr_right fun hmem => not_congr ?_
  constructor
  · rintro rfl
    have := entryOf?_of_mem_entries hc.nodup_keys hmem
    exact Option.some.inj (this.symm.trans hentry)
  · rintro rfl
    obtain ⟨q, hq, -⟩ := (hc.mem_entries_iff k i).1 hmem
    rw [h] at hq
    cases hq
    rfl

/-- **A load that fails gives up its own entry and no other.** -/
theorem mem_entries_finish_error (hc : c.Consistent) {id : Nat} {key : String}
    {p : Progress ε α} (h : c.loads[id]? = some ⟨key, p⟩) (hp : p.hasFailed = false) (x : ε)
    (e : String × Nat) :
    e ∈ (c.finish id (.error x)).entries ↔ e ∈ c.entries ∧ e.2 ≠ id :=
  hc.mem_entries_evict h hp e

protected theorem finish (hc : c.Consistent) {id : Nat} {key : String} {p : Progress ε α}
    (h : c.loads[id]? = some ⟨key, p⟩) (hp : p.hasFailed = false) (r : Except ε α) :
    (c.finish id r).Consistent := by
  cases r with
  | ok a => exact hc.note h hp rfl
  | error x =>
      refine ⟨fun k i => ?_, ?_⟩
      · rw [hc.mem_entries_finish_error h hp, hc.mem_entries_iff, loads_finish h]
        by_cases hi : i = id
        · subst hi
          simp [Progress.hasFailed]
        · simp [hi]
      · refine hc.nodup_keys.sublist (List.Sublist.map _ ?_)
        unfold Cache.finish evict
        rw [h]
        simp only [entries_note]
        split
        · exact List.filter_sublist
        · exact List.Sublist.refl _

/-- A key whose load has failed stands for nothing. -/
theorem entryOf?_finish_error (hc : c.Consistent) {id : Nat} {key : String} {p : Progress ε α}
    (h : c.loads[id]? = some ⟨key, p⟩) (hp : p.hasFailed = false) (x : ε) :
    (c.finish id (.error x)).entryOf? key = none := by
  rw [Cache.entryOf?_eq_none_iff]
  intro i hmem
  obtain ⟨hmem, hne⟩ := (hc.mem_entries_finish_error h hp x _).1 hmem
  obtain ⟨q, hq, hq'⟩ := (hc.mem_entries_iff key i).1 hmem
  exact hne (hc.eq_of_key hq hq' h hp)

end Consistent

/-! ### Remembered values -/

/-- The value that a key stands for, once its load has come to an end. -/
def kept? (c : Cache ε α) (key : String) : Option α :=
  match (c.entryOf? key).bind c.outcome? with
  | some (.ok a) => some a
  | _ => none

namespace Consistent

variable {c : Cache ε α}

theorem kept?_eq_some_iff (hc : c.Consistent) {key : String} {a : α} :
    c.kept? key = some a ↔ ∃ id : Nat, c.loads[id]? = some ⟨key, .done (.ok a)⟩ := by
  have hbind : c.kept? key = some a ↔ (c.entryOf? key).bind c.outcome? = some (.ok a) := by
    unfold kept?
    split <;> simp_all
  rw [hbind, Option.bind_eq_some_iff]
  constructor
  · rintro ⟨id, hid, hr⟩
    obtain ⟨key', hl⟩ := outcome?_eq_some_iff.1 hr
    obtain ⟨p, hp, -⟩ := hc.entryOf?_eq_some_iff.1 hid
    rw [hl] at hp
    cases hp
    exact ⟨id, hl⟩
  · rintro ⟨id, hl⟩
    exact ⟨id, hc.entryOf?_eq_some_iff.2 ⟨_, hl, rfl⟩, outcome?_eq_some_iff.2 ⟨key, hl⟩⟩

/-- Nothing is remembered of a key whose load has not come to an end. -/
theorem kept?_eq_none (hc : c.Consistent) {id : Nat} {key : String} {p : Progress ε α}
    (hl : c.loads[id]? = some ⟨key, p⟩) (hp : p.outcome? = none) : c.kept? key = none := by
  rw [Option.eq_none_iff_forall_ne_some]
  intro a ha
  obtain ⟨i, hi⟩ := hc.kept?_eq_some_iff.1 ha
  have hfailed : p.hasFailed = false := by
    cases p with
    | waiting | running => rfl
    | done r => cases hp
  have hid := hc.eq_of_key hi rfl hl hfailed
  subst hid
  rw [hl] at hi
  cases hi
  cases hp

/-- Asking for a key changes nothing of what is remembered. -/
theorem kept?_join (hc : c.Consistent) (key k : String) :
    (c.join key).1.kept? k = c.kept? k := by
  refine Option.ext fun a => ?_
  rw [(hc.join key).kept?_eq_some_iff, hc.kept?_eq_some_iff]
  unfold Cache.join
  cases c.entryOf? key with
  | some id => rfl
  | none =>
      refine exists_congr fun i => ?_
      rw [List.getElem?_append]
      by_cases hi : i < c.loads.length
      · rw [if_pos hi]
      · have hout : c.loads[i]? = none := List.getElem?_eq_none (by omega)
        rw [if_neg hi, hout, List.getElem?_singleton]
        split <;> simp

/-- The beginning of a load changes nothing of what is remembered. -/
theorem kept?_begin (hc : c.Consistent) {id : Nat} {key : String}
    (h : c.loads[id]? = some ⟨key, .waiting⟩) (k : String) :
    (c.begin id).kept? k = c.kept? k := by
  have hbegin : (c.begin id).Consistent := hc.note h rfl rfl
  refine Option.ext fun a => ?_
  rw [hbegin.kept?_eq_some_iff, hc.kept?_eq_some_iff]
  refine exists_congr fun i => ?_
  rw [begin, loads_note h]
  by_cases hi : i = id
  · subst hi
    simp [h]
  · rw [if_neg hi]

/-- What is remembered of a load that comes to an end is its value, if it has one. -/
theorem kept?_finish (hc : c.Consistent) {id : Nat} {key : String} {p : Progress ε α}
    (h : c.loads[id]? = some ⟨key, p⟩) (hp : p.hasFailed = false) (r : Except ε α) (k : String) :
    (c.finish id r).kept? k = if k = key then r.toOption else c.kept? k := by
  refine Option.ext fun a => ?_
  rw [(hc.finish h hp r).kept?_eq_some_iff]
  by_cases hk : k = key
  · subst hk
    rw [if_pos rfl]
    constructor
    · rintro ⟨i, hi⟩
      rw [loads_finish h] at hi
      by_cases hid : i = id
      · rw [if_pos hid] at hi
        cases hi
        rfl
      · rw [if_neg hid] at hi
        exact absurd (hc.eq_of_key hi rfl h hp) hid
    · intro hr
      refine ⟨id, ?_⟩
      rw [loads_finish h, if_pos rfl]
      cases r with
      | error x => cases hr
      | ok b => cases hr; rfl
  · rw [if_neg hk, hc.kept?_eq_some_iff]
    refine exists_congr fun i => ?_
    rw [loads_finish h]
    by_cases hid : i = id
    · subst hid
      simp [h, Ne.symm hk]
    · rw [if_neg hid]

/-- How somebody is served who asks for a key and waits: by a load that is over with a value, or
else by one that is carried out. -/
theorem resolve_eq (hc : c.Consistent) (load : String → Except ε α) (key : String) :
    (∃ a, c.kept? key = some a ∧ c.resolve load key = ((c.join key).1, .ok a)) ∨
      c.kept? key = none ∧ c.resolve load key =
        ((c.join key).1.finish (c.join key).2 (load key), load key) := by
  obtain ⟨p, hl, hp⟩ := hc.loads_join key
  unfold Cache.resolve
  cases p with
  | done r =>
      cases r with
      | error x => cases hp
      | ok a =>
          refine .inl ⟨a, ?_, ?_⟩
          · rw [← hc.kept?_join key]
            exact (hc.join key).kept?_eq_some_iff.2 ⟨_, hl⟩
          · simp only [outcome?_eq_some_iff.2 ⟨key, hl⟩]
  | waiting | running =>
      refine .inr ⟨?_, ?_⟩
      · rw [← hc.kept?_join key]
        exact (hc.join key).kept?_eq_none hl rfl
      · have hout : (c.join key).1.outcome? (c.join key).2 = none := by
          rw [outcome?, progress?, hl]
          rfl
        simp only [hout]

protected theorem resolve (hc : c.Consistent) (load : String → Except ε α) (key : String) :
    (c.resolve load key).1.Consistent := by
  obtain ⟨p, hl, hp⟩ := hc.loads_join key
  rcases hc.resolve_eq load key with ⟨a, -, h⟩ | ⟨-, h⟩
  · rw [h]
    exact hc.join key
  · rw [h]
    exact (hc.join key).finish hl hp _

/-- Who asks for a key and waits hears what is remembered, or else what the load comes to. -/
theorem resolve_snd (hc : c.Consistent) (load : String → Except ε α) (key : String) :
    (c.resolve load key).2 = ((c.kept? key).map .ok).getD (load key) := by
  rcases hc.resolve_eq load key with ⟨a, hk, h⟩ | ⟨hk, h⟩ <;> simp [h, hk]

/-- What was heard is remembered if it is a value, and nothing else changes. -/
theorem kept?_resolve (hc : c.Consistent) (load : String → Except ε α) (key k : String) :
    (c.resolve load key).1.kept? k =
      if k = key then (c.resolve load key).2.toOption else c.kept? k := by
  obtain ⟨p, hl, hp⟩ := hc.loads_join key
  rcases hc.resolve_eq load key with ⟨a, hk, h⟩ | ⟨hk, h⟩
  · rw [h, hc.kept?_join]
    by_cases hkey : k = key
    · subst hkey
      simp [hk, Except.toOption]
    · rw [if_neg hkey]
  · rw [h, (hc.join key).kept?_finish hl hp, hc.kept?_join]

end Consistent

end Cache

end Citations

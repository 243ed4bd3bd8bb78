/-
**Callers share loads, and none of them keeps a failed one.**

However callers, loads and outcomes take turns, a key has at most one load that has not failed.
Those who ask while it is going on or after it has come to a value share it, and all of them hear
the same.  A load that fails gives up its entry before anybody hears of it, so that the next caller
starts afresh; no entry is ever that of a failed load.

Main definitions:

* `Citations.Traffic.Sound` — the invariant: the cache is consistent, and callers wait for a load of
  their key and have heard nothing but its outcome;
* `Citations.Traffic.inFlight`, `Citations.Traffic.failures` — the loads of a key that have not come
  to an end, and those that have failed.

Main results:

* `Citations.Traffic.step?_cases` — all that an event can do;
* `Citations.Traffic.Reachable.sound` — the invariant holds whatever has happened;
* `Citations.Traffic.failed_load_gives_way` — **no failed load is kept, and the next caller starts a
  new one**;
* `Citations.Traffic.callers_share_loads` — **there is one load at a time, and at most one more than
  there are failures**.
-/

import Citations.Cache.Traffic
import Citations.Proofs.Cache.Consistency
import Mathlib.Data.List.Perm.Subperm

set_option relaxedAutoImplicit false
set_option autoImplicit false

namespace Citations.Traffic

variable {ε α : Type} {cwd : String} {t u : Traffic ε α}

/-! ### One event -/

/-- **All that an event can do.** -/
theorem step?_cases {e : Event ε α} (h : t.step? cwd e = some u) :
    (∃ path, e = .call path ∧ u = t.call cwd path) ∨
    (∃ id key, e = .start id ∧ t.cache.loads[id]? = some ⟨key, .waiting⟩ ∧
      u = { t with cache := t.cache.begin id }) ∨
    (∃ id key r, e = .finish id r ∧ t.cache.loads[id]? = some ⟨key, .running⟩ ∧
      u = { t with cache := t.cache.finish id r }) ∨
    (∃ (i : Nat) (path : String) (load : Nat) (r : Except ε α), e = .receive i ∧
      t.callers[i]? = some ⟨path, load, none⟩ ∧ t.cache.outcome? load = some r ∧
      u = { t with callers := t.callers.set i ⟨path, load, some r⟩ }) := by
  cases e with
  | call path =>
      cases h
      exact .inl ⟨path, rfl, rfl⟩
  | start id =>
      simp only [step?] at h
      split at h
      · rename_i hp
        cases h
        obtain ⟨key, hl⟩ := Cache.progress?_eq_some_iff.1 hp
        exact .inr (.inl ⟨id, key, rfl, hl, rfl⟩)
      · cases h
  | finish id r =>
      simp only [step?] at h
      split at h
      · rename_i hp
        cases h
        obtain ⟨key, hl⟩ := Cache.progress?_eq_some_iff.1 hp
        exact .inr (.inr (.inl ⟨id, key, r, rfl, hl, rfl⟩))
      · cases h
  | receive i =>
      simp only [step?] at h
      split at h
      · rename_i path load hi
        obtain ⟨r, hr, rfl⟩ := Option.map_eq_some_iff.1 h
        exact .inr (.inr (.inr ⟨i, path, load, r, rfl, hi, hr, rfl⟩))
      · cases h

theorem step?_start {id : Nat} (h : t.step? cwd (.start id) = some u) :
    ∃ key, t.cache.loads[id]? = some ⟨key, .waiting⟩ ∧
      u = { t with cache := t.cache.begin id } := by
  rcases step?_cases h with ⟨_, he, -⟩ | ⟨j, key, he, hl, hu⟩ | ⟨_, _, _, he, -, -⟩ |
    ⟨_, _, _, _, he, -, -, -⟩ <;> cases he
  exact ⟨key, hl, hu⟩

theorem step?_finish {id : Nat} {r : Except ε α} (h : t.step? cwd (.finish id r) = some u) :
    ∃ key, t.cache.loads[id]? = some ⟨key, .running⟩ ∧
      u = { t with cache := t.cache.finish id r } := by
  rcases step?_cases h with ⟨_, he, -⟩ | ⟨_, _, he, -, -⟩ | ⟨j, key, _, he, hl, hu⟩ |
    ⟨_, _, _, _, he, -, -, -⟩ <;> cases he
  exact ⟨key, hl, hu⟩

/-- A load keeps its number and its key; it begins once, and keeps its outcome once it has one. -/
theorem loads_step? {e : Event ε α} (h : t.step? cwd e = some u) {id : Nat} {key : String}
    {p : Progress ε α} (hl : t.cache.loads[id]? = some ⟨key, p⟩) :
    ∃ q, u.cache.loads[id]? = some ⟨key, q⟩ ∧ (p.hasBegun = true → q.hasBegun = true) ∧
      ∀ r, p = .done r → q = .done r := by
  rcases step?_cases h with ⟨path, -, rfl⟩ | ⟨j, k, -, hj, rfl⟩ | ⟨j, k, r, -, hj, rfl⟩ |
    ⟨i, path, load, r, -, -, -, rfl⟩
  · exact ⟨p, Cache.loads_join_of_loads hl _, fun hp => hp, fun _ hr => hr⟩
  · rw [Cache.begin, Cache.loads_note hj]
    by_cases hid : id = j
    · subst hid
      rw [hl] at hj
      cases hj
      exact ⟨.running, if_pos rfl, fun _ => rfl, fun r hr => by cases hr⟩
    · exact ⟨p, by rw [if_neg hid, hl], fun hp => hp, fun _ hr => hr⟩
  · simp only [Cache.loads_finish hj]
    by_cases hid : id = j
    · subst hid
      rw [hl] at hj
      cases hj
      exact ⟨.done r, if_pos rfl, fun _ => rfl, fun r hr => by cases hr⟩
    · exact ⟨p, by rw [if_neg hid, hl], fun hp => hp, fun _ hr => hr⟩
  · exact ⟨p, hl, fun hp => hp, fun _ hr => hr⟩

/-! ### The invariant -/

/-- The cache is consistent, every caller waits for a load of the key of their path, and has heard
nothing but the outcome of that load. -/
structure Sound (cwd : String) (t : Traffic ε α) : Prop where
  consistent : t.cache.Consistent
  waits : ∀ c ∈ t.callers, ∃ p, t.cache.loads[c.load]? = some ⟨Path.absolute cwd c.path, p⟩
  heard : ∀ c ∈ t.callers, ∀ r, c.received = some r → t.cache.outcome? c.load = some r

theorem sound_initial : (initial : Traffic ε α).Sound cwd :=
  ⟨Cache.consistent_empty, by simp [initial], by simp [initial]⟩

/-- The cache stays consistent. -/
theorem Sound.consistent_step? (ht : t.Sound cwd) {e : Event ε α} (h : t.step? cwd e = some u) :
    u.cache.Consistent := by
  rcases step?_cases h with ⟨path, -, rfl⟩ | ⟨j, k, -, hj, rfl⟩ | ⟨j, k, r, -, hj, rfl⟩ |
    ⟨i, path, load, r, -, -, -, rfl⟩
  · exact ht.consistent.join _
  · exact ht.consistent.note hj rfl rfl
  · exact ht.consistent.finish hj rfl r
  · exact ht.consistent

/-- Who is a caller after an event was one before, or has just come, or has just heard of the
outcome of a load. -/
theorem mem_callers_step? {e : Event ε α} (h : t.step? cwd e = some u) {c : Caller ε α}
    (hc : c ∈ u.callers) :
    c ∈ t.callers ∨
    (∃ path, e = .call path ∧ c = ⟨path, (t.cache.join (Path.absolute cwd path)).2, none⟩) ∨
    (∃ r, ⟨c.path, c.load, none⟩ ∈ t.callers ∧ t.cache.outcome? c.load = some r ∧
      c.received = some r) := by
  rcases step?_cases h with ⟨path, he, rfl⟩ | ⟨j, k, -, -, rfl⟩ | ⟨j, k, r, -, -, rfl⟩ |
    ⟨i, path, load, r, -, hi, hr, rfl⟩
  · rcases List.mem_append.1 hc with hc | hc
    · exact .inl hc
    · exact .inr (.inl ⟨path, he, List.mem_singleton.1 hc⟩)
  · exact .inl hc
  · exact .inl hc
  · rcases List.mem_or_eq_of_mem_set hc with hc | rfl
    · exact .inl hc
    · exact .inr (.inr ⟨r, List.mem_of_getElem? hi, hr, rfl⟩)

theorem Sound.step? (ht : t.Sound cwd) {e : Event ε α} (h : t.step? cwd e = some u) :
    u.Sound cwd := by
  have keeps : ∀ id key r, t.cache.loads[id]? = some ⟨key, .done r⟩ →
      u.cache.outcome? id = some r := by
    intro id key r hl
    obtain ⟨q, hq, -, hdone⟩ := loads_step? h hl
    rw [hdone r rfl] at hq
    exact Cache.outcome?_eq_some_iff.2 ⟨key, hq⟩
  refine ⟨ht.consistent_step? h, fun c hc => ?_, fun c hc r hr => ?_⟩
  · rcases mem_callers_step? h hc with hc | ⟨path, rfl, rfl⟩ | ⟨r, hc, -, -⟩
    · obtain ⟨p, hl⟩ := ht.waits c hc
      obtain ⟨q, hq, -⟩ := loads_step? h hl
      exact ⟨q, hq⟩
    · cases h
      obtain ⟨p, hl, -⟩ := ht.consistent.loads_join (Path.absolute cwd path)
      exact ⟨p, hl⟩
    · obtain ⟨p, hl⟩ := ht.waits _ hc
      obtain ⟨q, hq, -⟩ := loads_step? h hl
      exact ⟨q, hq⟩
  · rcases mem_callers_step? h hc with hc | ⟨path, -, rfl⟩ | ⟨r', -, hr', hrec⟩
    · obtain ⟨key, hl⟩ := Cache.outcome?_eq_some_iff.1 (ht.heard c hc r hr)
      exact keeps _ _ _ hl
    · cases hr
    · rw [hrec] at hr
      cases hr
      obtain ⟨key, hl⟩ := Cache.outcome?_eq_some_iff.1 hr'
      exact keeps _ _ _ hl

/-- The invariant holds whatever has happened. -/
theorem Reachable.sound (ht : Reachable cwd t) : t.Sound cwd := by
  induction ht with
  | initial => exact sound_initial
  | step _ hs ih => exact ih.step? hs

/-- Two callers wait for one load, which fails; a third one asks before they hear of it, and gets
another load, which comes to a value. -/
def retrial : List (Event Unit Nat) :=
  [.call "a.md", .call "/d/./a.md", .start 0, .finish 0 (.error ()), .call "b/../a.md",
    .receive 1, .start 1, .receive 0, .finish 1 (.ok 7), .receive 2]

/-! ### Failed loads -/

/-- Whether somebody who asks for a path now gets a new load, which can begin. -/
def StartsAfresh (cwd : String) (t : Traffic ε α) (path : String) : Prop :=
  (t.call cwd path).cache.loads =
      t.cache.loads ++ [⟨Path.absolute cwd path, .waiting⟩] ∧
    (t.call cwd path).callers = t.callers ++ [⟨path, t.cache.loads.length, none⟩] ∧
    ((t.call cwd path).step? cwd (.start t.cache.loads.length)).isSome

theorem startsAfresh_of_entryOf?_eq_none {path : String}
    (h : t.cache.entryOf? (Path.absolute cwd path) = none) : t.StartsAfresh cwd path := by
  have hjoin : t.cache.join (Path.absolute cwd path) =
      (⟨t.cache.loads ++ [⟨Path.absolute cwd path, .waiting⟩],
        t.cache.entries ++ [(Path.absolute cwd path, t.cache.loads.length)]⟩,
        t.cache.loads.length) := by
    rw [Cache.join, h]
  refine ⟨by rw [call, hjoin], by rw [call, hjoin], ?_⟩
  rw [call, hjoin]
  simp [step?, Cache.progress?]

/-- A key that stands for nothing does so until somebody asks for it. -/
theorem Sound.entryOf?_step?_eq_none (ht : t.Sound cwd) {e : Event ε α}
    (h : t.step? cwd e = some u) {key : String} (hnone : t.cache.entryOf? key = none)
    (he : ∀ path, e = .call path → Path.absolute cwd path ≠ key) :
    u.cache.entryOf? key = none := by
  rcases step?_cases h with ⟨path, hcall, rfl⟩ | ⟨j, k, -, -, rfl⟩ | ⟨j, k, r, -, hj, rfl⟩ |
    ⟨i, path, load, r, -, -, -, rfl⟩
  · rw [call, Cache.entryOf?_join_of_ne _ (he path hcall).symm, hnone]
  · exact hnone
  · cases r with
    | ok a => exact hnone
    | error x =>
        rw [Cache.entryOf?_eq_none_iff] at hnone ⊢
        intro id hmem
        exact hnone id ((ht.consistent.mem_entries_finish_error hj rfl x _).1 hmem).1
  · exact hnone

theorem Sound.entryOf?_run?_eq_none (ht : t.Sound cwd) {es : List (Event ε α)}
    (h : t.run? cwd es = some u) {key : String} (hnone : t.cache.entryOf? key = none)
    (he : ∀ path, .call path ∈ es → Path.absolute cwd path ≠ key) :
    u.cache.entryOf? key = none := by
  induction es generalizing t with
  | nil =>
      cases h
      exact hnone
  | cons e es ih =>
      obtain ⟨v, hv, hu⟩ := Option.bind_eq_some_iff.1 h
      refine ih (ht.step? hv) hu (ht.entryOf?_step?_eq_none hv hnone ?_) ?_
      · rintro path rfl
        exact he path (List.mem_cons_self ..)
      · intro path hmem
        exact he path (List.mem_cons_of_mem _ hmem)

/-- **No failed load is kept.**  Every entry is a load of its key that is going on or has come to a
value.  Once a load has failed, its key stands for it no more, be it that its callers have heard of
the failure or not.  In failing it takes away its own entry and no other, and whatever happens then,
the next one who asks for its key starts a new load. -/
theorem failed_load_gives_way (ht : Reachable cwd t) :
    (∀ key id, (key, id) ∈ t.cache.entries →
      ∃ p, t.cache.loads[id]? = some ⟨key, p⟩ ∧ p.hasFailed = false) ∧
    (∀ c ∈ t.callers, ∀ x,
      c.received = some (.error x) ∨ t.cache.outcome? c.load = some (.error x) →
        t.cache.entryOf? (Path.absolute cwd c.path) ≠ some c.load) ∧
    ∀ id key p x u, t.cache.loads[id]? = some ⟨key, p⟩ →
      t.step? cwd (.finish id (.error x)) = some u →
        (∀ e, e ∈ u.cache.entries ↔ e ∈ t.cache.entries ∧ e.2 ≠ id) ∧
        ∀ es v path, u.run? cwd es = some v →
          (∀ path', .call path' ∈ es → Path.absolute cwd path' ≠ key) →
            Path.absolute cwd path = key → v.StartsAfresh cwd path := by
  have hs := ht.sound
  refine ⟨fun key id hmem => (hs.consistent.mem_entries_iff key id).1 hmem, ?_, ?_⟩
  · intro c hc x hx hentry
    have hout : t.cache.outcome? c.load = some (.error x) := hx.elim (hs.heard c hc _) id
    obtain ⟨key, hl⟩ := Cache.outcome?_eq_some_iff.1 hout
    obtain ⟨p, hp, hfailed⟩ := hs.consistent.entryOf?_eq_some_iff.1 hentry
    rw [hl] at hp
    cases hp
    cases hfailed
  · intro id key p x u hl h
    obtain ⟨k, hj, rfl⟩ := step?_finish h
    rw [hl] at hj
    cases hj
    refine ⟨hs.consistent.mem_entries_finish_error hl rfl x, ?_⟩
    rintro es v path hrun hcalls rfl
    -- the key stands for nothing after the failure, hence also when it is asked for again
    have hnone := hs.consistent.entryOf?_finish_error hl rfl x
    exact startsAfresh_of_entryOf?_eq_none
      ((hs.step? h).entryOf?_run?_eq_none hrun hnone hcalls)

/-- The key of a load that fails stands for nothing, and the next caller gets a new load. -/
theorem failed_load_gives_way_retrial :
    ∃ t u : Traffic Unit Nat, initial.run? "/d" (retrial.take 3) = some t ∧
      t.step? "/d" (.finish 0 (.error ())) = some u ∧
      (∀ e, e ∈ u.cache.entries ↔ e ∈ t.cache.entries ∧ e.2 ≠ 0) ∧
      u.StartsAfresh "/d" "b/../a.md" := by
  have hrun : initial.run? "/d" (retrial.take 3) = some _ := rfl
  obtain ⟨-, -, hfail⟩ := failed_load_gives_way (reachable_of_run? .initial hrun)
  refine ⟨_, _, hrun, rfl, ?_⟩
  obtain ⟨hentries, hafresh⟩ := hfail 0 "/d/a.md" .running () _ rfl rfl
  exact ⟨hentries, hafresh [] _ "b/../a.md" rfl (fun _ h => by cases h) rfl⟩

/-! ### Shared loads -/

/-- The loads of a key that have not come to an end. -/
def inFlight (t : Traffic ε α) (key : String) : List (Load ε α) :=
  (t.loadsOf key).filter fun l => l.progress.outcome?.isNone

/-- The loads of a key that have failed. -/
def failures (t : Traffic ε α) (key : String) : List (Load ε α) :=
  (t.loadsOf key).filter fun l => l.progress.hasFailed

/-- A key has at most one load more than it has failures. -/
theorem Sound.length_loadsOf_le (ht : t.Sound cwd) (key : String) :
    (t.loadsOf key).length ≤ 1 + (t.failures key).length := by
  have hsplit := List.length_eq_length_filter_add (l := t.loadsOf key)
    fun l => l.progress.hasFailed
  have hone := ht.consistent.length_filter_le_one key
  have hrest : ((t.loadsOf key).filter fun l => !l.progress.hasFailed).length ≤ 1 := by
    rw [loadsOf, List.filter_filter]
    simpa only [Bool.and_comm] using hone
  unfold failures
  omega

/-- A key has at most one load that has not come to an end. -/
theorem Sound.length_inFlight_le_one (ht : t.Sound cwd) (key : String) :
    (t.inFlight key).length ≤ 1 := by
  refine Nat.le_trans (List.Sublist.length_le ?_) (ht.consistent.length_filter_le_one key)
  rw [inFlight, loadsOf, List.filter_filter]
  refine List.monotone_filter_right _ fun l hl => ?_
  obtain ⟨k, p⟩ := l
  cases p <;> simp_all [Progress.outcome?, Progress.hasFailed]

/-- Whoever asks for the key of a load that has not failed waits for that load. -/
theorem Sound.call_eq (ht : t.Sound cwd) {a : Caller ε α} (ha : a ∈ t.callers)
    {p : Progress ε α} (hp : t.cache.progress? a.load = some p) (hfailed : p.hasFailed = false)
    {path : String} (hpath : Path.absolute cwd path = Path.absolute cwd a.path) :
    t.call cwd path = ⟨t.cache, t.callers ++ [⟨path, a.load, none⟩]⟩ := by
  obtain ⟨q, hq⟩ := ht.waits a ha
  obtain ⟨key, hl⟩ := Cache.progress?_eq_some_iff.1 hp
  rw [hq] at hl
  cases hl
  have hentry := ht.consistent.entryOf?_eq_some_iff.2 ⟨p, hq, hfailed⟩
  rw [call, hpath, Cache.join, hentry]

/-! ### Loads that begin -/

/-- The numbers of the loads that begin in a list of events, in order. -/
def beginnings : List (Event ε α) → List Nat
  | [] => []
  | .start id :: es => id :: beginnings es
  | _ :: es => beginnings es

/-- Whether the load of a number has begun. -/
def HasBegun (t : Traffic ε α) (id : Nat) : Prop :=
  ∃ key p, t.cache.loads[id]? = some ⟨key, p⟩ ∧ p.hasBegun = true

theorem HasBegun.step? {id : Nat} (hb : t.HasBegun id) {e : Event ε α}
    (h : t.step? cwd e = some u) : u.HasBegun id := by
  obtain ⟨key, p, hl, hp⟩ := hb
  obtain ⟨q, hq, hbegun, -⟩ := loads_step? h hl
  exact ⟨key, q, hq, hbegun hp⟩

theorem HasBegun.run? {id : Nat} (hb : t.HasBegun id) {es : List (Event ε α)}
    (h : t.run? cwd es = some u) : u.HasBegun id := by
  induction es generalizing t with
  | nil =>
      cases h
      exact hb
  | cons e es ih =>
      obtain ⟨v, hv, hu⟩ := Option.bind_eq_some_iff.1 h
      exact ih (hb.step? hv) hu

/-- A load that begins has not begun before, and has begun then. -/
theorem hasBegun_of_start {id : Nat} (h : t.step? cwd (.start id) = some u) :
    ¬ t.HasBegun id ∧ u.HasBegun id := by
  obtain ⟨k, hj, rfl⟩ := step?_start h
  refine ⟨?_, k, .running, ?_, rfl⟩
  · rintro ⟨key, p, hl, hp⟩
    rw [hj] at hl
    cases hl
    cases hp
  · rw [Cache.begin, Cache.loads_note hj, if_pos rfl]

/-- **A load begins once**, whatever happens. -/
theorem nodup_beginnings {es : List (Event ε α)} (h : t.run? cwd es = some u) :
    (beginnings es).Nodup ∧ ∀ id ∈ beginnings es, ¬ t.HasBegun id ∧ u.HasBegun id := by
  induction es generalizing t with
  | nil => exact ⟨List.nodup_nil, fun id hid => by cases hid⟩
  | cons e es ih =>
      obtain ⟨v, hv, hu⟩ := Option.bind_eq_some_iff.1 h
      obtain ⟨hnodup, hall⟩ := ih hu
      -- what begins later has not begun now, since a load that has begun stays so
      have later : ∀ id ∈ beginnings es, ¬ t.HasBegun id ∧ u.HasBegun id := fun id hid =>
        ⟨fun hb => (hall id hid).1 (hb.step? hv), (hall id hid).2⟩
      cases e with
      | start j =>
          obtain ⟨hbefore, hafter⟩ := hasBegun_of_start hv
          refine ⟨List.nodup_cons.2 ⟨fun hj => (hall j hj).1 hafter, hnodup⟩, ?_⟩
          intro id hid
          rcases List.mem_cons.1 hid with rfl | hid
          · exact ⟨hbefore, hafter.run? hu⟩
          · exact later id hid
      | call path => exact ⟨hnodup, later⟩
      | finish j r => exact ⟨hnodup, later⟩
      | receive i => exact ⟨hnodup, later⟩

/-- How often a load of a key begins in a list of events that leads to `t`. -/
def beginningsOf (t : Traffic ε α) (key : String) (es : List (Event ε α)) : Nat :=
  (beginnings es).countP fun id => (t.cache.loads[id]?).any (·.key = key)

/-- Different places at which something selected stands are no more than what is selected. -/
theorem length_le_length_filter {β : Type} {select : β → Bool} {xs : List β} {places : List Nat}
    (hnodup : places.Nodup) (h : ∀ i ∈ places, ∃ x, xs[i]? = some x ∧ select x = true) :
    places.length ≤ (xs.filter select).length := by
  have hsub : places ⊆ (xs.zipIdx.filter fun e => select e.1).map Prod.snd := by
    intro i hi
    obtain ⟨x, hx, hsel⟩ := h i hi
    exact List.mem_map.2
      ⟨(x, i), List.mem_filter.2 ⟨List.mk_mem_zipIdx_iff_getElem?.2 hx, hsel⟩, rfl⟩
  have hlen : ((xs.zipIdx.filter fun e => select e.1).map Prod.snd).length =
      (xs.filter select).length := by
    conv_rhs => rw [← List.zipIdx_map_fst 0 xs, List.filter_map]
    simp [Function.comp_def]
  exact hlen ▸ (List.subperm_of_subset hnodup hsub).length_le

theorem beginningsOf_le {es : List (Event ε α)} (h : t.run? cwd es = some u) (key : String) :
    u.beginningsOf key es ≤ (u.loadsOf key).length := by
  rw [beginningsOf, List.countP_eq_length_filter]
  refine length_le_length_filter ((nodup_beginnings h).1.filter _) fun id hid => ?_
  obtain ⟨-, hkey⟩ := List.mem_filter.1 hid
  exact (Option.any_eq_true ..).1 hkey

/-- **Callers share loads.**  At any time a key has at most one load that has not come to an end,
and no load of it begins while there is a value for it.  Whoever asks, under any path with the same
normal form, for the key of a load that is going on or has come to a value, waits for that load; all
who wait for one load hear the same; and loads of a key begin at most once more than they fail. -/
theorem callers_share_loads {es : List (Event ε α)} (h : initial.run? cwd es = some t) :
    (∀ key, (t.inFlight key).length ≤ 1) ∧
    (∀ id u key p, t.step? cwd (.start id) = some u → t.cache.loads[id]? = some ⟨key, p⟩ →
      t.cache.kept? key = none) ∧
    (∀ a ∈ t.callers, ∀ p path, t.cache.progress? a.load = some p → p.hasFailed = false →
      Path.absolute cwd path = Path.absolute cwd a.path →
        t.call cwd path = ⟨t.cache, t.callers ++ [⟨path, a.load, none⟩]⟩) ∧
    (∀ a ∈ t.callers, ∀ b ∈ t.callers, a.load = b.load → ∀ r s,
      a.received = some r → b.received = some s → r = s) ∧
    ∀ key, t.beginningsOf key es ≤ 1 + (t.failures key).length := by
  have hs := (reachable_of_run? .initial h).sound
  refine ⟨hs.length_inFlight_le_one, ?_, ?_, ?_, fun key =>
    Nat.le_trans (beginningsOf_le h key) (hs.length_loadsOf_le key)⟩
  · intro id u key p hstart hl
    obtain ⟨k, hwaiting, -⟩ := step?_start hstart
    rw [hl] at hwaiting
    cases hwaiting
    exact hs.consistent.kept?_eq_none hl rfl
  · intro a ha p path hp hfailed hpath
    exact hs.call_eq ha hp hfailed hpath
  · intro a ha b hb hload r s hr hs'
    have h₁ := hs.heard a ha r hr
    have h₂ := hs.heard b hb s hs'
    rw [hload, h₂] at h₁
    exact (Option.some.inj h₁).symm

/-- The load begins again after it has failed, and only then. -/
theorem callers_share_loads_retrial :
    ∃ t : Traffic Unit Nat, initial.run? "/d" retrial = some t ∧
      (∀ key, (t.inFlight key).length ≤ 1) ∧ t.beginningsOf "/d/a.md" retrial = 2 ∧
      t.beginningsOf "/d/a.md" retrial ≤ 1 + (t.failures "/d/a.md").length := by
  have hrun : initial.run? "/d" retrial = some _ := rfl
  obtain ⟨hflight, -, -, -, hcount⟩ := callers_share_loads hrun
  exact ⟨_, hrun, hflight, rfl, hcount "/d/a.md"⟩

end Citations.Traffic

/-
**Many requests at once.**

Callers ask for what is at a path, loads begin and end, and callers hear of the outcomes, in any
order that these events can come in.  The key of a path is its normal form seen from the working
directory `cwd`, so that paths with one normal form share their loads.

Main definitions:

* `Citations.Traffic` — a cache with those who have asked it for something;
* `Citations.Traffic.Event` — what can happen;
* `Citations.Traffic.step?` — what a single event does, if it can happen;
* `Citations.Traffic.run?` — what a list of events does;
* `Citations.Traffic.Reachable` — what can come of an empty cache.

Main results:

* `Citations.Traffic.reachable_of_run?` — a list of events leads to what can be reached.
-/

import Citations.Cache
import Citations.Path

set_option relaxedAutoImplicit false
set_option autoImplicit false

namespace Citations

/-- Somebody who has asked for a path: the load waited for, and the outcome once it is heard of. -/
structure Caller (ε α : Type) where
  path : String
  load : Nat
  received : Option (Except ε α)

/-- A cache with those who have asked it for something, in the order in which they came. -/
structure Traffic (ε α : Type) where
  cache : Cache ε α
  callers : List (Caller ε α)

namespace Traffic

variable {ε α : Type}

/-- What can happen. -/
inductive Event (ε α : Type) where
  /-- Somebody asks for a path. -/
  | call (path : String)
  /-- A load begins. -/
  | start (id : Nat)
  /-- A load ends. -/
  | finish (id : Nat) (outcome : Except ε α)
  /-- A caller hears of the outcome of a load. -/
  | receive (caller : Nat)

/-- Before anything has happened. -/
def initial : Traffic ε α := ⟨.empty, []⟩

/-- Somebody asks for a path. -/
def call (cwd : String) (t : Traffic ε α) (path : String) : Traffic ε α :=
  let joined := t.cache.join (Path.absolute cwd path)
  ⟨joined.1, t.callers ++ [⟨path, joined.2, none⟩]⟩

/-- **What a single event does**: a load begins once, ends once after that, and has an outcome to
hear of when it has ended. -/
def step? (cwd : String) (t : Traffic ε α) : Event ε α → Option (Traffic ε α)
  | .call path => some (t.call cwd path)
  | .start id =>
      match t.cache.progress? id with
      | some .waiting => some { t with cache := t.cache.begin id }
      | _ => none
  | .finish id outcome =>
      match t.cache.progress? id with
      | some .running => some { t with cache := t.cache.finish id outcome }
      | _ => none
  | .receive caller =>
      match t.callers[caller]? with
      | some ⟨path, load, none⟩ =>
          (t.cache.outcome? load).map fun outcome =>
            { t with callers := t.callers.set caller ⟨path, load, some outcome⟩ }
      | _ => none

/-- What a list of events does, one after another. -/
def run? (cwd : String) (t : Traffic ε α) : List (Event ε α) → Option (Traffic ε α)
  | [] => some t
  | e :: es => (t.step? cwd e).bind (run? cwd · es)

/-- What can come of an empty cache. -/
inductive Reachable (cwd : String) : Traffic ε α → Prop where
  | initial : Reachable cwd initial
  | step {t u : Traffic ε α} {e : Event ε α} :
      Reachable cwd t → t.step? cwd e = some u → Reachable cwd u

/-- A list of events leads to what can be reached. -/
theorem reachable_of_run? {cwd : String} {t u : Traffic ε α} {es : List (Event ε α)}
    (ht : Reachable cwd t) (h : t.run? cwd es = some u) : Reachable cwd u := by
  induction es generalizing t with
  | nil => cases h; exact ht
  | cons e es ih =>
      obtain ⟨v, hv, hu⟩ := Option.bind_eq_some_iff.1 h
      exact ih (ht.step hv) hu

/-- The loads of a key, begun or not. -/
def loadsOf (t : Traffic ε α) (key : String) : List (Load ε α) :=
  t.cache.loads.filter fun l => l.key = key

end Traffic

end Citations

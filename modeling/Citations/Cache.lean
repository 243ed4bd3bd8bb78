/-
**Remembering what was loaded.**

A cache keeps, for every key, the load that was started for it.  Whoever asks for a key while its
load is going on waits for the same load, so nothing is loaded twice at a time; a load that fails
gives up its entry before anybody hears of the failure, so that the next request starts afresh.

Main definitions:

* `Citations.Cache` — the loads that were started, and the load that each key stands for;
* `Citations.Cache.join` — asks for a key, and starts a load if there is none;
* `Citations.Cache.finish` — the end of a load;
* `Citations.Cache.resolve` — asks for a key and waits for the outcome.
-/

set_option relaxedAutoImplicit false
set_option autoImplicit false

namespace Citations

/-- How far a load has come. -/
inductive Progress (ε α : Type) where
  /-- It is agreed upon but has not begun. -/
  | waiting
  /-- It is going on. -/
  | running
  /-- It has come to an end. -/
  | done (outcome : Except ε α)

/-- The outcome of a load that has come to an end. -/
def Progress.outcome? {ε α : Type} : Progress ε α → Option (Except ε α)
  | .done outcome => some outcome
  | _ => none

/-- One load of a key. -/
structure Load (ε α : Type) where
  key : String
  progress : Progress ε α

/-- The loads that were started, each known by its number in the list, and the load that each key
stands for. -/
structure Cache (ε α : Type) where
  loads : List (Load ε α)
  entries : List (String × Nat)

namespace Cache

variable {ε α : Type}

/-- The cache before anything is loaded. -/
def empty : Cache ε α := ⟨[], []⟩

/-! ### Looking at a cache -/

/-- The load that a key stands for. -/
def entryOf? (c : Cache ε α) (key : String) : Option Nat :=
  (c.entries.find? fun e => e.1 = key).map Prod.snd

/-- Whether a key has an entry. -/
def contains (c : Cache ε α) (key : String) : Bool := (c.entryOf? key).isSome

/-- The number of entries. -/
def size (c : Cache ε α) : Nat := c.entries.length

/-- How far a load has come. -/
def progress? (c : Cache ε α) (id : Nat) : Option (Progress ε α) :=
  (c.loads[id]?).map Load.progress

/-- The outcome of a load that has come to an end. -/
def outcome? (c : Cache ε α) (id : Nat) : Option (Except ε α) :=
  (c.progress? id).bind Progress.outcome?

/-! ### Changing a cache -/

/-- **Asks for a key**: the load that it stands for, or else a new one, which becomes its entry. -/
def join (c : Cache ε α) (key : String) : Cache ε α × Nat :=
  match c.entryOf? key with
  | some id => (c, id)
  | none =>
      (⟨c.loads ++ [⟨key, .waiting⟩], c.entries ++ [(key, c.loads.length)]⟩, c.loads.length)

/-- Records how far a load has come. -/
def note (c : Cache ε α) (id : Nat) (p : Progress ε α) : Cache ε α :=
  { c with loads := c.loads.modify id fun l => { l with progress := p } }

/-- A load begins. -/
def begin (c : Cache ε α) (id : Nat) : Cache ε α := c.note id .running

/-- Takes away the entry of a load's key, if the key still stands for that load. -/
def evict (c : Cache ε α) (id : Nat) : Cache ε α :=
  match c.loads[id]? with
  | none => c
  | some l =>
      if c.entryOf? l.key = some id then
        { c with entries := c.entries.filter fun e => e.1 ≠ l.key }
      else c

/-- **The end of a load.**  One that failed gives up its entry. -/
def finish (c : Cache ε α) (id : Nat) : Except ε α → Cache ε α
  | .ok a => c.note id (.done (.ok a))
  | .error e => (c.evict id).note id (.done (.error e))

/-- **Asks for a key and waits for the outcome**; a load that has not come to an end is carried
out. -/
def resolve (load : String → Except ε α) (c : Cache ε α) (key : String) :
    Cache ε α × Except ε α :=
  let joined := c.join key
  match joined.1.outcome? joined.2 with
  | some outcome => (joined.1, outcome)
  | none => (joined.1.finish joined.2 (load key), load key)

/-! ### Laws -/

end Cache

end Citations

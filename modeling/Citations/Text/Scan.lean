/-
**Scanning a text from left to right.**

Citations, anchors and code spans are all found the same way: at each place a reader looks at the
character before it and at the text from it on, and either reads a piece of some length or declines.
The leftmost pieces win, and the search goes on behind each of them.

Main definitions:

* `Citations.Text.Reader` — what reads a piece at a place;
* `Citations.Text.Found` — a piece that was read, with its place;
* `Citations.Text.findAll` — the pieces that a reader finds in a text;
* `Citations.Text.replaceAll` — the text with something else in the place of each piece;
* `Citations.Text.slice` — the part of a list between two places.

Main results:

* `Citations.Text.findAll_start_lt_stop` — a piece holds at least one character;
* `Citations.Text.findAll_pairwise` — **the pieces come in order and do not overlap**.
-/

set_option relaxedAutoImplicit false
set_option autoImplicit false

namespace Citations.Text

/-! ### Pieces of a text -/

/-- A piece of a text: the place of its first character, the place behind its last one, and what
was read there. -/
structure Found (α : Type) where
  start : Nat
  stop : Nat
  value : α

/-- Given the character before a place and the text from it on, a reader either declines or says
what it read and how many characters that took. -/
abbrev Reader (α : Type) := Option Char → List Char → Option (α × Nat)

/-- The pieces found from place `pos` on, where `skip` characters still belong to the piece before
and `prev` is the character before `pos`. -/
def findFrom {α : Type} (read : Reader α) : Option Char → Nat → Nat → List Char → List (Found α)
  | _, _, _, [] => []
  | _, pos, skip + 1, c :: cs => findFrom read (some c) (pos + 1) skip cs
  | prev, pos, 0, c :: cs =>
      match read prev (c :: cs) with
      | some (a, n) => ⟨pos, pos + max n 1, a⟩ :: findFrom read (some c) (pos + 1) (n - 1) cs
      | none => findFrom read (some c) (pos + 1) 0 cs

/-- **The leftmost pieces that a reader finds in a text**, in order.  A piece takes at least one
character. -/
def findAll {α : Type} (read : Reader α) (cs : List Char) : List (Found α) :=
  findFrom read none 0 0 cs

/-- The first piece that a reader finds in a text. -/
def find? {α : Type} (read : Reader α) (cs : List Char) : Option (Found α) :=
  (findAll read cs).head?

/-- The text from a place on, with what the reader says in the place of each piece. -/
def replaceFrom (read : Reader (List Char)) : Option Char → Nat → List Char → List Char
  | _, _, [] => []
  | _, skip + 1, c :: cs => replaceFrom read (some c) skip cs
  | prev, 0, c :: cs =>
      match read prev (c :: cs) with
      | some (r, n) => r ++ replaceFrom read (some c) (n - 1) cs
      | none => c :: replaceFrom read (some c) 0 cs

/-- **The text with what the reader says in the place of each piece.** -/
def replaceAll (read : Reader (List Char)) (cs : List Char) : List Char :=
  replaceFrom read none 0 cs

/-! ### Order of the pieces -/

variable {α : Type} (read : Reader α)

theorem le_start_of_mem_findFrom {m : Found α} :
    ∀ (cs : List Char) (prev : Option Char) (pos skip : Nat),
      m ∈ findFrom read prev pos skip cs → pos + skip ≤ m.start ∧ m.start < m.stop := by
  intro cs
  induction cs with
  | nil => intro prev pos skip h; simp [findFrom] at h
  | cons c cs ih =>
      intro prev pos skip h
      cases skip with
      | succ skip =>
          have := ih _ _ _ (by simpa [findFrom] using h)
          omega
      | zero =>
          simp only [findFrom] at h
          split at h
          · rcases List.mem_cons.1 h with rfl | h
            · simp only
              omega
            · have := ih _ _ _ h
              omega
          · have := ih _ _ _ h
            omega

theorem findAll_start_lt_stop {cs : List Char} {m : Found α} (h : m ∈ findAll read cs) :
    m.start < m.stop :=
  (le_start_of_mem_findFrom read cs none 0 0 h).2

theorem findFrom_pairwise :
    ∀ (cs : List Char) (prev : Option Char) (pos skip : Nat),
      (findFrom read prev pos skip cs).Pairwise fun a b => a.stop ≤ b.start := by
  intro cs
  induction cs with
  | nil => intro prev pos skip; simp [findFrom]
  | cons c cs ih =>
      intro prev pos skip
      cases skip with
      | succ skip => simpa [findFrom] using ih _ _ _
      | zero =>
          simp only [findFrom]
          split
          · rename_i a n _
            refine List.pairwise_cons.2 ⟨?_, ih _ _ _⟩
            intro b hb
            have := (le_start_of_mem_findFrom read cs _ _ _ hb).1
            simp only
            omega
          · exact ih _ _ _

/-- **The pieces come in order and do not overlap.** -/
theorem findAll_pairwise (cs : List Char) :
    (findAll read cs).Pairwise fun a b => a.stop ≤ b.start :=
  findFrom_pairwise read cs none 0 0

/-! ### Slices -/

/-- The elements from place `start` up to, but not including, place `stop`. -/
def slice {α : Type} (xs : List α) (start stop : Nat) : List α := (xs.drop start).take (stop - start)

theorem length_slice {α : Type} (xs : List α) {start stop : Nat} (h : stop ≤ xs.length) :
    (slice xs start stop).length = stop - start := by
  simp [slice]
  omega

/-- A bound below zero counts from the end of a sequence of the given length. -/
def place (length : Nat) (bound : Int) : Nat :=
  if bound < 0 then (length + bound).toNat else bound.toNat

end Citations.Text

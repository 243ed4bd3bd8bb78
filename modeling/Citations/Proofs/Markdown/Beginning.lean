/-
**Where blocks begin.**

A block begins with one of the lines that it is read from, or behind it.  Inside a container the
same lines are read again, behind their marks but under their numbers, so this holds on every
level.  Empty lines in front of all others are passed over; a source whose first lines are blanked
holds no block that begins there.

Main definitions:

* `Citations.Markdown.BeginsWithin` — whether the blocks that are read begin within the lines given.

Main results:

* `Citations.Markdown.begin_readBlocks` — blocks that are read one after another;
* `Citations.Markdown.beginsWithin_readBlock` — **one block**, and what it holds;
* `Citations.Markdown.le_first_of_mem_blocks` — **no block begins on a line that is blanked**.
-/

import Citations.Markdown.Structure
import Mathlib.Data.List.Basic

set_option relaxedAutoImplicit false
set_option autoImplicit false

namespace Citations.Markdown

variable {block : Frame → Line → List Line → Blocks} {inQuote inItem inside : Reading}

/-! ### Lines from a number on -/

/-- Whether all lines have at least a given number. -/
def From (n : Nat) (ls : List Line) : Prop := ∀ l ∈ ls, n ≤ l.number

theorem From.sublist {n : Nat} {ls ls' : List Line} (h : From n ls) (hsub : ls'.Sublist ls) :
    From n ls' := fun l hl => h l (hsub.mem hl)

theorem From.cons {n : Nat} {l : Line} {ls : List Line} (hl : n ≤ l.number) (h : From n ls) :
    From n (l :: ls) := by
  intro l' hl'
  rcases List.mem_cons.1 hl' with rfl | hl'
  · exact hl
  · exact h l' hl'

/-- Whether blocks begin at a line of at least a given number. -/
def Begin (n : Nat) (bs : List Block) : Prop := ∀ b ∈ bs, n ≤ b.first

theorem begin_nil (n : Nat) : Begin n [] := fun _ h => nomatch h

theorem Begin.cons {n : Nat} {b : Block} {bs : List Block} (hb : n ≤ b.first) (h : Begin n bs) :
    Begin n (b :: bs) := by
  intro b' hb'
  rcases List.mem_cons.1 hb' with rfl | hb'
  · exact hb
  · exact h b' hb'

theorem Begin.append {n : Nat} {bs bs' : List Block} (h : Begin n bs) (h' : Begin n bs') :
    Begin n (bs ++ bs') :=
  fun b hb => (List.mem_append.1 hb).elim (h b) (h' b)

/-- Whether the blocks that a reading finds begin within the lines that it is given. -/
def ReadsWithin (inside : Reading) : Prop :=
  ∀ n f ls, From n ls → Begin n (inside f ls).1

/-- Whether a block, and what it holds, begins within the lines that it is read from. -/
def BeginsWithin (block : Frame → Line → List Line → Blocks) : Prop :=
  ∀ n f l rest, From n (l :: rest) → Begin n (block f l rest).1

/-! ### One block after another -/

/-- **Blocks that are read one after another** begin behind the empty lines in front. -/
theorem begin_readBlocks (hblock : BeginsWithin block) {n : Nat} (f : Frame) (count next : Nat)
    (ls : List Line) (h : From n (ls.dropWhile fun l => l.isEmpty && l.number < f.limit)) :
    Begin n (readBlocks block f count next ls).1 := by
  induction count generalizing next ls with
  | zero => exact begin_nil n
  | succ count ih =>
      rw [readBlocks]
      split
      · exact begin_nil n
      · split
        · exact begin_nil n
        · rename_i l rest hls
          rw [hls] at h
          split
          · exact begin_nil n
          · refine (hblock n f l rest h).append (ih _ _ ?_)
            refine h.sublist ((List.dropWhile_sublist _).trans ?_)
            exact ((List.drop_sublist ..).trans (List.drop_sublist ..)).trans
              (List.sublist_cons_self ..)

/-- So a container whose lines are read this way begins no block before them. -/
theorem readsWithin_of_exists
    (h : ∃ block, BeginsWithin block ∧ ∀ f ls, inside f ls =
      readBlocks block f (ls.length + 1) ((ls.head?.map Line.number).getD 0) ls) :
    ReadsWithin inside := by
  obtain ⟨block, hblock, hread⟩ := h
  intro n f ls hls
  rw [hread]
  exact begin_readBlocks hblock f _ _ ls (hls.sublist (List.dropWhile_sublist _))

/-! ### One block -/

theorem begin_tableBlocks {n first : Nat} (h : n ≤ first) (rows : Nat) :
    Begin n (tableBlocks first rows) := by
  intro b hb
  simp only [tableBlocks, List.cons_append, List.mem_cons, List.mem_append, List.mem_map] at hb
  rcases hb with rfl | rfl | hb | ⟨i, -, rfl⟩
  · exact h
  · exact h
  · split at hb
    · cases hb
    · rw [List.mem_singleton.1 hb]
      exact Nat.le_add_right_of_le h
  · dsimp only
    omega

/-- The lines of a quotation keep their numbers. -/
theorem from_quoteLines {n : Nat} (f : Frame) (afterEmpty : Bool) (next : Nat) (ls : List Line)
    (h : From n ls) : From n (quoteLines f afterEmpty next ls).1 := by
  fun_induction quoteLines f afterEmpty next ls with
  | case1 => exact h
  | case2 => exact h
  | case3 afterEmpty next l rest _ _ r ih =>
      refine From.cons (Line.number_unquote l ▸ h l (List.mem_cons_self ..)) (ih ?_)
      exact h.sublist (List.sublist_cons_self ..)
  | case4 => exact h
  | case5 => exact h
  | case6 afterEmpty next l rest _ _ _ _ r ih =>
      exact From.cons (h l (List.mem_cons_self ..)) (ih (h.sublist (List.sublist_cons_self ..)))

theorem begin_readQuote (hinside : ReadsWithin inside) {n : Nat} (f : Frame) (l : Line)
    (rest : List Line) (h : From n (l :: rest)) : Begin n (readQuote inside f l rest).1 :=
  Begin.cons (h l (List.mem_cons_self ..)) (hinside n _ _ (from_quoteLines f _ _ _ h))

theorem begin_readItems (hinside : ReadsWithin inside) {n : Nat} (f : Frame) (count : Nat)
    (m : ListMark) (l : Line) (rest : List Line) (h : From n (l :: rest)) :
    Begin n (readItems inside f count m l rest).1 := by
  induction count generalizing m l rest with
  | zero => exact begin_nil n
  | succ count ih =>
      have hl : n ≤ l.number := h l (List.mem_cons_self ..)
      have hrest : From n rest := h.sublist (List.sublist_cons_self ..)
      rw [readItems]
      split
      rename_i first indent hfirst
      have hnumber : first.number = l.number := by
        rw [← Line.number_inItem l m.length, hfirst]
      extract_lets inner item
      have hinner : Begin n inner.1 := by
        unfold inner
        split
        · exact begin_nil n
        · exact hinside n _ _ (From.cons (hnumber ▸ hl) hrest)
      have hlast : Begin n (item :: inner.1) := Begin.cons hl hinner
      split
      · exact hlast
      · rename_i l' rest' hdrop
        have hnext : From n (l' :: rest') := hdrop ▸ hrest.sublist (List.drop_sublist ..)
        split
        · exact hlast
        split
        · exact hlast
        split
        · exact hlast.append (ih _ l' rest' hnext)
        · exact hlast

/-- A heading, a paragraph or another text begins with its line. -/
theorem begin_readText {n : Nat} (f : Frame) (l : Line) (rest : List Line) (h : n ≤ l.number) :
    Begin n (readText f l rest).1 := by
  unfold readText
  repeat' split
  all_goals simp [Begin, h]

/-- **One block** begins within the lines that it is read from, and so does what it holds. -/
theorem beginsWithin_readBlock (hquote : ReadsWithin inQuote) (hitem : ReadsWithin inItem) :
    BeginsWithin (readBlock inQuote inItem) := by
  intro n f l rest h
  have hl : n ≤ l.number := h l (List.mem_cons_self ..)
  have hsingle (kind : BlockKind) (stop : Nat) : Begin n [⟨kind, l.number, stop⟩] :=
    Begin.cons hl (begin_nil n)
  unfold readBlock
  dsimp only
  split
  · exact hsingle _ _
  split
  · exact begin_tableBlocks hl _
  split
  · exact hsingle _ _
  split
  · rename_i r hr
    unfold readMarked at hr
    split at hr
    · cases hr
      exact hsingle _ _
    · cases hr
  split
  · exact begin_readQuote hquote f l rest h
  split
  · exact hsingle _ _
  split
  · exact Begin.cons hl (begin_readItems hitem f _ _ l rest h)
  · exact begin_readText f l rest hl

/-! ### All blocks -/

/-- On every level blocks are read one after another, and begin within the lines they are read
from. -/
theorem exists_readBlocks : ∀ levels, ∃ block, BeginsWithin block ∧ ∀ f ls,
    blocksWithin levels f ls =
      readBlocks block f (ls.length + 1) ((ls.head?.map Line.number).getD 0) ls
  | 0 => ⟨_, fun n _ _ _ _ => begin_nil n, fun _ _ => rfl⟩
  | 1 =>
      have hinside := readsWithin_of_exists (exists_readBlocks 0)
      ⟨_, beginsWithin_readBlock hinside hinside, fun _ _ => rfl⟩
  | levels + 2 =>
      ⟨_, beginsWithin_readBlock (readsWithin_of_exists (exists_readBlocks (levels + 1)))
        (readsWithin_of_exists (exists_readBlocks levels)), fun _ _ => rfl⟩

/-! ### Blanked lines -/

theorem from_splitSource (number : Nat) (before cs : List Char) :
    From number (splitSource number before cs) := by
  induction cs generalizing number before with
  | nil =>
      rw [splitSource]
      split
      · exact fun _ h => nomatch h
      · exact From.cons (Nat.le_refl number) fun _ h => nomatch h
  | cons c cs ih =>
      rw [splitSource]
      split
      · exact From.cons (Nat.le_refl number) fun l hl => Nat.le_of_succ_le (ih _ _ l hl)
      · exact ih number _

theorem normalizeSource_replicate (n : Nat) (cs : List Char) :
    normalizeSource (List.replicate n '\n' ++ cs) =
      List.replicate n '\n' ++ normalizeSource cs := by
  induction n with
  | zero => rfl
  | succ n ih =>
      rw [List.replicate_succ, List.cons_append, List.cons_append, ← ih]
      rfl

/-- Blanked lines are empty, and the lines behind them have the numbers from there on. -/
theorem exists_splitSource_replicate (number n : Nat) (cs : List Char) :
    ∃ blanked, splitSource number [] (List.replicate n '\n' ++ cs) =
        blanked ++ splitSource (number + n) [] cs ∧
      blanked.length = n ∧ ∀ l ∈ blanked, l.isEmpty = true ∧ l.number < number + n := by
  induction n generalizing number with
  | zero => exact ⟨[], rfl, rfl, fun _ h => nomatch h⟩
  | succ n ih =>
      obtain ⟨blanked, hsplit, hlength, hblanked⟩ := ih (number + 1)
      have hnumber : number + 1 + n = number + (n + 1) := by omega
      rw [hnumber] at hsplit hblanked
      refine ⟨Line.ofText number [] false :: blanked, ?_, by rw [List.length_cons, hlength],
        fun l hl => ?_⟩
      · rw [List.replicate_succ, List.cons_append, splitSource, if_pos rfl, hsplit]
        rfl
      · rcases List.mem_cons.1 hl with rfl | hl
        · exact ⟨rfl, Nat.lt_add_of_pos_right (Nat.succ_pos n)⟩
        · exact hblanked l hl

/-- **No block begins on a line that is blanked.** -/
theorem le_first_of_mem_blocks {d : Dialect} {n : Nat} {cs : List Char} {b : Block}
    (h : b ∈ blocks d (List.replicate n '\n' ++ cs)) : n ≤ b.first := by
  obtain ⟨blanked, hlines, hlength, hblanked⟩ :=
    exists_splitSource_replicate 0 n (normalizeSource cs)
  rw [← normalizeSource_replicate, Nat.zero_add] at hlines
  obtain ⟨block, hblock, hread⟩ := exists_readBlocks d.nesting
  rw [blocks, hread] at h
  refine begin_readBlocks hblock _ _ _ _ ?_ b h
  -- the blanked lines are all passed over
  rw [sourceLines, hlines, List.dropWhile_append_of_pos]
  · exact (from_splitSource n [] _).sublist (List.dropWhile_sublist _)
  · intro l hl
    have hnumber : l.number < n := Nat.zero_add n ▸ (hblanked l hl).2
    rw [(hblanked l hl).1, Bool.true_and, List.length_append, hlength]
    exact decide_eq_true (Nat.lt_add_right _ hnumber)

end Citations.Markdown

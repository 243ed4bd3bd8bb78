/-
**Blocks.**

The block structure of a document is listed in document order, a container before what it holds.
Each block covers the lines from its first one up to, but not including, a last one.

Main definitions:

* `Citations.Markdown.Block` — a block with the lines it covers;
* `Citations.Markdown.codeLines` — the lines of all blocks of code;
* `Citations.Markdown.innermost` — the smallest block that covers a line.

Main results:

* `Citations.Markdown.exists_append_of_innermost` — **that block is the first of the smallest ones
  that cover the line**;
* `Citations.Markdown.covers_eq_false_of_innermost` — without one, no block covers the line.
-/

set_option relaxedAutoImplicit false
set_option autoImplicit false

namespace Citations.Markdown

/-- The kinds of block. -/
inductive BlockKind where
  | paragraph
  | heading (level : Nat) (text : String)
  /-- The text of a heading that a line underlines. -/
  | headingText
  /-- Code between two marks. -/
  | fencedCode
  /-- Code set apart by its indentation. -/
  | indentedCode
  | html
  /-- A thematic break. -/
  | rule
  | quote
  | list
  | item
  | table
  /-- A row of a table, or the part of a table that holds rows. -/
  | tablePart
  deriving DecidableEq

/-- A block with the lines it covers: from `first` up to, but not including, `stop`. -/
structure Block where
  kind : BlockKind
  first : Nat
  stop : Nat
  deriving DecidableEq

namespace Block

/-- Whether a block holds code. -/
def isCode (b : Block) : Bool :=
  match b.kind with
  | .fencedCode | .indentedCode => true
  | _ => false

/-- Whether a block covers a line. -/
def covers (b : Block) (line : Nat) : Bool := b.first ≤ line && line < b.stop

/-- The number of lines that a block covers. -/
def size (b : Block) : Nat := b.stop - b.first

end Block

/-- Whether a line belongs to a block of code. -/
def isCodeLine (blocks : List Block) (line : Nat) : Bool :=
  blocks.any fun b => b.isCode && b.covers line

/-- The lines of all blocks of code, in order. -/
def codeLines (blocks : List Block) : List Nat :=
  (List.range ((blocks.map Block.stop).foldl max 0)).filter (isCodeLine blocks)

/-- The smaller of two blocks, the first one if they are equally large. -/
def smaller (best : Option Block) (b : Block) : Option Block :=
  match best with
  | none => some b
  | some a => if b.size < a.size then some b else some a

/-- **The smallest block that covers a line**, the first one if there are several. -/
def innermost (blocks : List Block) (line : Nat) : Option Block :=
  (blocks.filter (·.covers line)).foldl smaller none

theorem foldl_smaller_some (bs : List Block) (a : Block) :
    ∃ before b after, a :: bs = before ++ b :: after ∧ bs.foldl smaller (some a) = some b ∧
      b.size ≤ a.size ∧ (∀ c ∈ before, b.size < c.size) ∧ ∀ c ∈ after, b.size ≤ c.size := by
  induction bs generalizing a with
  | nil => exact ⟨[], a, [], rfl, rfl, Nat.le_refl _, by simp, by simp⟩
  | cons x bs ih =>
      by_cases h : x.size < a.size
      · obtain ⟨before, b, after, happend, hb, hle, hbefore, hafter⟩ := ih x
        refine ⟨a :: before, b, after, by rw [happend, List.cons_append],
          by simpa [smaller, h] using hb, by omega, fun c hc => ?_, hafter⟩
        rcases List.mem_cons.1 hc with rfl | hc
        · omega
        · exact hbefore c hc
      · obtain ⟨before, b, after, happend, hb, hle, hbefore, hafter⟩ := ih a
        have hfold : (x :: bs).foldl smaller (some a) = some b := by simpa [smaller, h] using hb
        -- `x` is no better than `a`, and so it belongs behind `a`, wherever that is
        cases before with
        | nil =>
            cases happend
            refine ⟨[], _, x :: bs, rfl, hfold, hle, by simp, fun c hc => ?_⟩
            rcases List.mem_cons.1 hc with rfl | hc
            · omega
            · exact hafter c hc
        | cons y before =>
            cases happend
            have hlt := hbefore a (List.mem_cons_self ..)
            refine ⟨a :: x :: before, b, after, rfl, hfold, hle, fun c hc => ?_, hafter⟩
            rcases List.mem_cons.1 hc with rfl | hc
            · exact hlt
            · rcases List.mem_cons.1 hc with rfl | hc
              · omega
              · exact hbefore c (List.mem_cons_of_mem _ hc)

/-- **The innermost block of a line is the first of the smallest ones that cover the line.** -/
theorem exists_append_of_innermost {blocks : List Block} {line : Nat} {b : Block}
    (h : innermost blocks line = some b) :
    ∃ before after, blocks = before ++ b :: after ∧ b.covers line = true ∧
      (∀ c ∈ before, c.covers line = true → b.size < c.size) ∧
      ∀ c ∈ after, c.covers line = true → b.size ≤ c.size := by
  unfold innermost at h
  cases hf : blocks.filter (·.covers line) with
  | nil => rw [hf] at h; cases h
  | cons a bs =>
      rw [hf] at h
      obtain ⟨front, c, rest, happend, hc, -, hfront, hrest⟩ := foldl_smaller_some bs a
      cases hc.symm.trans h
      rw [happend] at hf
      obtain ⟨first, behind, rfl, rfl, hbehind⟩ := List.filter_eq_append_iff.1 hf
      obtain ⟨skipped, after, rfl, hskipped, hcovers, rfl⟩ := List.filter_eq_cons_iff.1 hbehind
      refine ⟨first ++ skipped, after, by simp, hcovers, fun c hc hl => ?_,
        fun c hc hl => hrest c (List.mem_filter.2 ⟨hc, hl⟩)⟩
      rcases List.mem_append.1 hc with hc | hc
      · exact hfront c (List.mem_filter.2 ⟨hc, hl⟩)
      · exact absurd hl (hskipped c hc)

/-- Where there is no innermost block, no block covers the line. -/
theorem covers_eq_false_of_innermost {blocks : List Block} {line : Nat} {c : Block}
    (h : innermost blocks line = none) (hc : c ∈ blocks) : c.covers line = false := by
  unfold innermost at h
  cases hf : blocks.filter (·.covers line) with
  | nil => exact Bool.eq_false_iff.2 (List.filter_eq_nil_iff.1 hf c hc)
  | cons a bs =>
      rw [hf] at h
      obtain ⟨-, b, -, -, hb, -⟩ := foldl_smaller_some bs a
      cases hb.symm.trans h

end Citations.Markdown

/-
**Block anchors and inline code.**

A caret in a code span declares nothing, whether its name ends the line or not: both scans for
carets leave the code spans out.  The scan for highlights does not.  It finds the leftmost
highlights of the line, in code or not, and so they are the only block anchors that inline code
declares.

Main definitions:

* `Citations.Anchor.InCode` — whether an anchor starts in a code span of its line;
* `Citations.Anchor.ofHighlight` — the anchor that a highlight declares.

Main results:

* `Citations.Anchor.foundHighlight_mem_iff` — the leftmost highlights are found;
* `Citations.Anchor.notInCode_or_eq_ofHighlight` — a block anchor that is not the anchor of a
  highlight stands outside code;
* `Citations.Anchor.outsideCode_iff` — **the block anchors that inline code declares**;
* `Citations.Anchor.not_outsideCode` — a highlight in a code span is an anchor.
-/

import Citations.Proofs.Document.BlockText

set_option relaxedAutoImplicit false
set_option autoImplicit false

namespace Citations.Anchor

open Text

variable {line inside : List Char} {number i : Nat} {a : Anchor}

/-- Whether an anchor starts in a code span of its line. -/
def InCode (line : List Char) (a : Anchor) : Prop := inSpans (codeSpans line) a.column = true

instance (line : List Char) (a : Anchor) : Decidable (InCode line a) :=
  inferInstanceAs (Decidable (_ = true))

/-! ### Names behind carets -/

theorem inSpans_of_mem_trailing {m : Found String} (h : m ∈ trailing line) :
    inSpans (codeSpans line) m.start = false := by
  rw [trailing, Option.mem_def, Option.filter_eq_some_iff] at h
  simpa using (Bool.and_eq_true_iff.1 h.2).2

theorem inSpans_of_mem_inline {m : Found String} (h : m ∈ inline line) :
    inSpans (codeSpans line) m.start = false := by
  rw [inline, List.mem_filterMap] at h
  obtain ⟨found, -, h⟩ := h
  split at h
  · cases h
  · rename_i houtside
    obtain ⟨b, -, h⟩ := Option.bind_eq_some_iff.1 h
    obtain ⟨name, -, rfl⟩ := Option.map_eq_some_iff.1 h
    exact Bool.eq_false_iff.2 houtside

/-! ### Highlights -/

/-- The highlight with the given inside, found at a place. -/
def foundHighlight (i : Nat) (inside : List Char) : Found (String × String) :=
  ⟨i, i + (highlight inside).length, (String.ofList inside, String.ofList (highlight inside))⟩

/-- **The anchor that a highlight declares** by its start. -/
def ofHighlight (number i : Nat) (inside : List Char) : Anchor :=
  ⟨String.ofList inside, number, i, .block (some (String.ofList (highlight inside)))⟩

/-- What the scan for highlights finds. -/
theorem exists_foundHighlight {m : Found (String × String)} (h : m ∈ findAll readEmphasis line) :
    ∃ inside, StartsWithHighlight (line.drop m.start) inside ∧
      m = foundHighlight m.start inside := by
  obtain ⟨front, rest, n, rfl, hstart, hread, hstop⟩ := exists_read_of_mem_findAll h
  obtain ⟨inside, hstarts, hvalue, rfl⟩ := readEmphasis_eq_some_iff.1 hread
  refine ⟨inside, by rwa [← hstart, List.drop_left], ?_⟩
  obtain ⟨start, stop, value⟩ := m
  simp only at hstop hvalue
  simp [foundHighlight, hvalue, hstop]

/-- **The leftmost highlights are found.** -/
theorem foundHighlight_mem_iff :
    foundHighlight i inside ∈ findAll readEmphasis line ↔
      StartsWithHighlight (line.drop i) inside ∧
        ∀ j other, foundHighlight j other ∈ findAll readEmphasis line → j < i →
          j + (highlight other).length ≤ i := by
  constructor
  · intro h
    refine ⟨?_, fun j other ho hlt => stop_le_start_of_mem_findAll h ho hlt⟩
    obtain ⟨found, hstarts, heq⟩ := exists_foundHighlight h
    have hinside : inside = found :=
      String.ofList_injective (congrArg (fun m => m.value.1) heq)
    rwa [hinside]
  · rintro ⟨hstarts, hbefore⟩
    have hlt : i < line.length := by
      have hle := hstarts.isPrefix.length_le
      rw [length_highlight, List.length_drop] at hle
      omega
    obtain ⟨front, x, rest, rfl, rfl⟩ := exists_append_cons_of_lt hlt
    rw [List.drop_left] at hstarts
    have hread : readEmphasis front.getLast? (x :: rest) =
        some ((foundHighlight front.length inside).value, inside.length + 8) :=
      readEmphasis_eq_some_iff.2 ⟨inside, hstarts, rfl, rfl⟩
    refine mem_findAll_iff.2 ⟨⟨front, x, rest, _, rfl, rfl, hread, ?_⟩, fun o ho hstart => ?_⟩
    · simp [foundHighlight]
    · obtain ⟨other, -, hfound⟩ := exists_foundHighlight ho
      rw [hfound] at ho ⊢
      exact hbefore _ _ ho hstart

/-! ### The block anchors of a line -/

/-- A block anchor is declared by a caret outside code, or it is the anchor of a highlight. -/
theorem notInCode_or_eq_ofHighlight (h : a ∈ ofLine number line) :
    (a.form = .block none ∧ ¬ a.InCode line) ∨
      ∃ i inside, a = ofHighlight number i inside ∧
        foundHighlight i inside ∈ findAll readEmphasis line := by
  simp only [ofLine, List.mem_append, List.mem_map, List.mem_filter] at h
  rcases h with (⟨m, hm, rfl⟩ | ⟨m, ⟨hm, -⟩, rfl⟩) | ⟨m, hm, rfl⟩
  · exact .inl ⟨rfl, Bool.eq_false_iff.1 (inSpans_of_mem_trailing (Option.mem_toList.1 hm))⟩
  · exact .inl ⟨rfl, Bool.eq_false_iff.1 (inSpans_of_mem_inline hm)⟩
  · obtain ⟨inside, -, hfound⟩ := exists_foundHighlight hm
    rw [hfound] at hm
    exact .inr ⟨m.start, inside, by rw [hfound]; rfl, hm⟩

theorem ofHighlight_mem_ofLine_iff :
    ofHighlight number i inside ∈ ofLine number line ↔
      foundHighlight i inside ∈ findAll readEmphasis line := by
  constructor
  · intro h
    rcases notInCode_or_eq_ofHighlight h with ⟨hform, -⟩ | ⟨j, other, heq, hfound⟩
    · cases hform
    · have hinside := String.ofList_injective (congrArg Anchor.id heq)
      have hplace : i = j := congrArg Anchor.column heq
      rwa [hplace, hinside]
  · intro h
    exact List.mem_append_right _ (List.mem_map.2 ⟨_, h, rfl⟩)

/-- **The block anchors that inline code declares** are highlights.  The anchors of highlights are
those of the leftmost ones on the line, wherever the code spans are; so none of the block anchors of
a line starts in code exactly if none of these highlights does. -/
theorem outsideCode_iff (number : Nat) (line : List Char) :
    (∀ a ∈ ofLine number line, a.InCode line → ∃ inside, a = ofHighlight number a.column inside) ∧
      (∀ i inside, ofHighlight number i inside ∈ ofLine number line ↔
        StartsWithHighlight (line.drop i) inside ∧
          ∀ j other, ofHighlight number j other ∈ ofLine number line → j < i →
            j + (highlight other).length ≤ i) ∧
      ((∀ a ∈ ofLine number line, ¬ a.InCode line) ↔
        ∀ i inside, ofHighlight number i inside ∈ ofLine number line →
          ¬ (ofHighlight number i inside).InCode line) := by
  have hcode : ∀ a ∈ ofLine number line, a.InCode line →
      ∃ inside, a = ofHighlight number a.column inside := by
    intro a ha hin
    rcases notInCode_or_eq_ofHighlight ha with ⟨-, hout⟩ | ⟨i, inside, rfl, -⟩
    · exact absurd hin hout
    · exact ⟨inside, rfl⟩
  refine ⟨hcode, fun i inside => ?_, fun h i inside hmem => ?_, fun h a ha hin => ?_⟩
  · simp only [ofHighlight_mem_ofLine_iff]
    exact foundHighlight_mem_iff
  · exact h _ hmem
  · obtain ⟨inside, heq⟩ := hcode a ha hin
    rw [heq] at ha hin
    exact h _ _ ha hin

/-- **A highlight in a code span is an anchor**, although no caret in one is. -/
theorem not_outsideCode :
    ¬ ∀ (number : Nat) (line : List Char), ∀ a ∈ ofLine number line, ¬ a.InCode line := by
  intro h
  have hmem : ofHighlight 1 1 ['a'] ∈ ofLine 1 "`==**a**==`".toList := by decide
  have hin : (ofHighlight 1 1 ['a']).InCode "`==**a**==`".toList := by decide
  exact h _ _ _ hmem hin

end Citations.Anchor

/-
**Names written with escapes.**

A name is compared with an anchor in two ways: as it is written, with the id of the anchor, and as
it is decoded, with the id, with what the encoded id of a heading stands for, and with the text
without inline decoration.  So whichever way a name without percent signs is written with escapes,
what it names by its decoded form it still names.

The id of a block behind a caret is the exception: it is compared as it is written only.  There an
escape makes the name unknown, although the same block is found by its bare id, escapes and all.

Main definitions:

* `Citations.Anchor.IsWritten` — whether a name is the id of an anchor as it is written;
* `Citations.Anchor.GoesBy` — whether an anchor goes by a decoded name.

Main results:

* `Citations.Anchor.answersTo_iff` — **a name is compared as it is written or as it is decoded**;
* `Citations.Document.hasAnchor_of_decode_eq` — **what a name still names when it is written with
  escapes**;
* `Citations.Document.not_hasAnchor_of_decode_eq` — a block behind a caret is lost.
-/

import Citations.Proofs.Document.HeadingNames

set_option relaxedAutoImplicit false
set_option autoImplicit false

namespace Citations

open Text

/-! ### As written and as decoded -/

namespace Anchor

/-- Whether a name is the id of an anchor as it is written: bare, or that of a block behind a
caret. -/
def IsWritten (a : Anchor) (name : String) : Prop :=
  a.id = name ∨ a.kind = .block ∧ name = "^" ++ a.id

/-- Whether an anchor goes by a name that is decoded: by its id, by what the encoded id of a heading
stands for, or by its text without inline decoration. -/
def GoesBy (a : Anchor) (decoded : String) : Prop :=
  a.id = decoded ∨ (∃ encoded, a.encodedId? = some encoded ∧ decoded = decode encoded) ∨
    undecorate decoded.toList ≠ [] ∧ undecorate decoded.toList = a.plainText

variable {a : Anchor} {name : String}

theorem goesBy_decode_of_encodedId? (h : a.encodedId? = some name) : a.GoesBy (decode name) :=
  .inr (.inl ⟨name, h, rfl⟩)

/-- **A name is compared as it is written or as it is decoded.** -/
theorem answersTo_iff (a : Anchor) (name : String) :
    a.answersTo name = true ↔ a.IsWritten name ∨ a.GoesBy (decode name) := by
  have hempty (cs : List Char) : (!cs.isEmpty) = true ↔ cs ≠ [] := by simp
  have hcaret : name.toList = '^' :: a.id.toList ↔ name = "^" ++ a.id := by
    rw [← String.toList_inj, String.toList_append]
    rfl
  cases hform : a.form with
  | header encoded title =>
      have hencoded : a.encodedId? = some encoded := by rw [encodedId?, hform]
      have hkind : a.kind ≠ .block := by simp [kind, hform]
      unfold answersTo
      simp only [hform, Bool.or_eq_true, Bool.and_eq_true, beq_iff_eq, hempty]
      constructor
      · rintro (((hid | hid) | hencodedName | hdecoded) | htext)
        · exact .inl (.inl hid)
        · exact .inr (.inl hid)
        · exact .inr (goesBy_decode_of_encodedId? (hencodedName ▸ hencoded))
        · exact .inr (.inr (.inl ⟨encoded, hencoded, hdecoded⟩))
        · exact .inr (.inr (.inr htext))
      · rintro ((hid | ⟨hblock, -⟩) | hid | ⟨other, hother, hdecoded⟩ | htext)
        · exact .inl (.inl (.inl hid))
        · exact absurd hblock hkind
        · exact .inl (.inl (.inr hid))
        · rw [hencoded, Option.some.injEq] at hother
          exact .inl (.inr (.inr (hother ▸ hdecoded)))
        · exact .inr htext
  | block highlight =>
      have hencoded : a.encodedId? = none := by rw [encodedId?, hform]
      have hkind : a.kind = .block := by rw [kind, hform]
      unfold answersTo
      simp only [hform, Bool.or_eq_true, Bool.and_eq_true, beq_iff_eq, hempty, hcaret]
      constructor
      · rintro (((hid | hid) | hbehind) | htext)
        · exact .inl (.inl hid)
        · exact .inr (.inl hid)
        · exact .inl (.inr ⟨hkind, hbehind⟩)
        · exact .inr (.inr (.inr htext))
      · rintro ((hid | ⟨-, hbehind⟩) | hid | ⟨other, hother, -⟩ | htext)
        · exact .inl (.inl (.inl hid))
        · exact .inl (.inr hbehind)
        · exact .inl (.inl (.inr hid))
        · rw [hencoded] at hother
          cases hother
        · exact .inr htext

end Anchor

/-! ### Names with escapes -/

namespace Document

variable {d : Document} {name written : String}

theorem hasAnchor_iff_isWritten_or_goesBy (d : Document) (name : String) :
    d.hasAnchor name = true ↔
      name ≠ "" ∧
        ((∃ a ∈ d.anchors, a.GoesBy (decode name)) ∨ ∃ a ∈ d.anchors, a.IsWritten name) := by
  simp only [hasAnchor_iff, Anchor.answersTo_iff, and_or_left, exists_or]
  rw [or_comm]

/-- **What a name without percent signs still names when it is written with escapes**: all that goes
by its decoded form.  What is lost is a block that it names behind a caret, and nothing else. -/
theorem hasAnchor_of_decode_eq (hplain : '%' ∉ name.toList) (hwritten : decode written = name)
    (h : d.hasAnchor name = true) :
    (name.toList.head? ≠ some '^' → d.hasAnchor written = true) ∧
      (d.hasAnchor written = true ↔
        (∃ a ∈ d.anchors, a.GoesBy name) ∨ ∃ a ∈ d.anchors, a.IsWritten written) := by
  obtain ⟨hname, hknown⟩ := (hasAnchor_iff_isWritten_or_goesBy d name).1 h
  rw [decode_eq_self hplain] at hknown
  have hne : written ≠ "" := by
    rintro rfl
    exact hname (by rw [← hwritten]; rfl)
  have hiff : d.hasAnchor written = true ↔
      (∃ a ∈ d.anchors, a.GoesBy name) ∨ ∃ a ∈ d.anchors, a.IsWritten written := by
    rw [hasAnchor_iff_isWritten_or_goesBy, hwritten]
    exact and_iff_right hne
  refine ⟨fun hcaret => hiff.2 (.inl ?_), hiff⟩
  rcases hknown with hgoes | ⟨a, ha, hid | ⟨-, hbehind⟩⟩
  · exact hgoes
  · exact ⟨a, ha, .inl hid⟩
  · exact absurd (by rw [hbehind, String.toList_append]; rfl) hcaret

/-- A document with a heading and a block that can be named behind a caret. -/
def captioned : Document := parse .standard "/" "/captioned.md" "# Part one\n\ntext ^para-one\n"

theorem hasAnchor_of_decode_eq_captioned :
    captioned.hasAnchor "Part one" = true ∧ decode "%50art%20on%65" = "Part one" ∧
      captioned.hasAnchor "%50art%20on%65" = true := by
  have hname : captioned.hasAnchor "Part one" = true := by decide +kernel
  have hdecode : decode "%50art%20on%65" = "Part one" := by decide +kernel
  exact ⟨hname, hdecode, (hasAnchor_of_decode_eq (by decide) hdecode hname).1 (by decide)⟩

/-- **Escapes are not always seen through**: a block behind a caret is named by its id as it is
written only. -/
theorem not_hasAnchor_of_decode_eq :
    ¬ ∀ (d : Document) (name written : String), d.IsParsed → '%' ∉ name.toList →
      decode written = name → d.hasAnchor name = true → d.hasAnchor written = true := by
  intro hall
  have hfound := hall captioned "^para-one" "^para%2Done" ⟨_, _, _, _, rfl⟩ (by decide)
    (by decide +kernel) (by decide +kernel)
  have hmissing : captioned.hasAnchor "^para%2Done" = false := by decide +kernel
  rw [hmissing] at hfound
  exact absurd hfound (by decide)

end Document

end Citations

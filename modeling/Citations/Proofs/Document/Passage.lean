/-
**The passages that a document offers.**

That a document has an anchor of some name and that it offers a passage under that name are two
questions.  The first one goes through all anchors; the second one goes through the headings, or
through the block anchors, as the link says which kind it means.  Here the second question is
answered heading by heading and anchor by anchor, so that the two answers can be compared.

Main definitions:

* `Citations.Heading.answersTo` — whether a heading goes by a name when a section is looked for;
* `Citations.Document.offers` — **whether a document offers a passage** under the anchor of a link.

Main results:

* `Citations.Document.IsParsed.isSome_findHeading_iff` — a section is found by a name exactly when
  some heading goes by it;
* `Citations.Link.isSome_passage?_iff` — **there is a text exactly when a passage is offered**.
-/

import Citations.Extraction.Finding
import Citations.Proofs.Text.Percent

set_option relaxedAutoImplicit false
set_option autoImplicit false

namespace Citations

open Text

variable {d : Document}

/-! ### The anchors of a document -/

namespace Document.IsParsed

/-- The anchor of each heading is among the anchors. -/
theorem ofHeading_mem_anchors (hd : d.IsParsed) {h : Heading} (hh : h ∈ d.headings) :
    Anchor.ofHeading h ∈ d.anchors := by
  obtain ⟨dialect, cwd, path, content, rfl⟩ := hd
  exact List.mem_append_right _ (List.mem_map_of_mem hh)

/-- Any other anchor is a block. -/
theorem kind_or_ofHeading (hd : d.IsParsed) {a : Anchor} (ha : a ∈ d.anchors) :
    a.kind = .block ∨ ∃ h ∈ d.headings, a = Anchor.ofHeading h := by
  obtain ⟨dialect, cwd, path, content, rfl⟩ := hd
  rcases List.mem_append.1 ha with ha | ha
  · obtain ⟨_, _, _, _, _, hline⟩ := Document.exists_of_mem_scanLines ha
    exact .inl (Anchor.kind_of_mem_ofLine hline)
  · obtain ⟨h, hh, rfl⟩ := List.mem_map.1 ha
    exact .inr ⟨h, hh, rfl⟩

end Document.IsParsed

/-! ### Headings by name -/

/-- Whether a heading goes by a name when a section is looked for. -/
def Heading.answersTo (h : Heading) (name : String) : Bool :=
  let cleaned := undecorate (decode name).toList
  h.text == name || Document.isNamed (.ofHeading h) name ||
    Document.isNamed (.ofHeading h) (decode name) ||
    (!cleaned.isEmpty && cleaned == undecorate h.text.toList)

theorem Document.kind_of_isNamed {a : Anchor} {name : String}
    (h : Document.isNamed a name = true) : a.kind = .header := by
  obtain ⟨id, line, column, form⟩ := a
  cases form with
  | header encodedId title => rfl
  | block highlight => cases h

/-- **A section is found by a name exactly when some heading goes by it.** -/
theorem Document.IsParsed.isSome_findHeading_iff (hd : d.IsParsed) (name : String) :
    (d.findHeading name none).isSome ↔ ∃ h ∈ d.headings, h.answersTo name = true := by
  have hall : d.headingsAt none = d.headings := by simp [Document.headingsAt]
  unfold Document.findHeading
  simp only [hall, Option.isSome_or, Bool.or_eq_true]
  constructor
  · -- by the text as written, by the ids of an anchor, and by the text without decoration
    rintro (hfound | hfound | hfound)
    · obtain ⟨h, hh, htext⟩ := List.find?_isSome.1 hfound
      exact ⟨h, hh, by simp [Heading.answersTo, of_decide_eq_true htext]⟩
    · obtain ⟨a, ha, hnamed⟩ := List.findSome?_isSome_iff.1 hfound
      split at hnamed
      · rename_i hor
        have hkind : a.kind = .header :=
          hor.elim Document.kind_of_isNamed Document.kind_of_isNamed
        rcases hd.kind_or_ofHeading ha with hblock | ⟨h, hh, rfl⟩
        · rw [hkind] at hblock
          cases hblock
        · refine ⟨h, hh, ?_⟩
          rcases hor with h | h <;> simp [Heading.answersTo, h]
      · cases hnamed
    · split at hfound
      · cases hfound
      · rename_i hcleaned
        obtain ⟨h, hh, hsame⟩ := List.find?_isSome.1 hfound
        exact ⟨h, hh, by simp [Heading.answersTo, hcleaned, of_decide_eq_true hsame]⟩
  · rintro ⟨h, hh, hans⟩
    -- the heading of an anchor that is named is looked for by its line, and so it is found
    have hfound : (d.headings.reverse.find? fun o => o.line = (Anchor.ofHeading h).line).isSome :=
      List.find?_isSome.2 ⟨h, List.mem_reverse.2 hh, by simp⟩
    simp only [Heading.answersTo, Bool.or_eq_true, Bool.and_eq_true, beq_iff_eq,
      Bool.not_eq_true'] at hans
    rcases hans with ((htext | hnamed) | hnamed) | ⟨hcleaned, hsame⟩
    · exact .inl (List.find?_isSome.2 ⟨h, hh, by simp [htext]⟩)
    · refine .inr (.inl (List.findSome?_isSome_iff.2 ⟨_, hd.ofHeading_mem_anchors hh, ?_⟩))
      simpa [hnamed] using hfound
    · refine .inr (.inl (List.findSome?_isSome_iff.2 ⟨_, hd.ofHeading_mem_anchors hh, ?_⟩))
      simpa [hnamed] using hfound
    · refine .inr (.inr ?_)
      rw [hcleaned, if_neg (by simp)]
      exact List.find?_isSome.2 ⟨h, hh, by simp [hsame]⟩

/-! ### Passages -/

/-- **Whether a document offers a passage** under the anchor of a link: of the kind that the link
means, and of no other. -/
def Document.offers (d : Document) (kind : Option AnchorKind) (name : String) : Bool :=
  match kind with
  | some .header => d.headings.any (·.answersTo (decode name))
  | some .block => d.anchors.any fun a => a.kind = .block ∧ a.id = Document.withoutCaret name
  | none => true

/-- **There is a text exactly when a passage is offered.** -/
theorem Link.isSome_passage?_iff (hd : d.IsParsed) (l : Link) :
    (l.passage? d).isSome ↔ d.offers l.anchorKind (l.target.anchor.getD "") = true := by
  unfold Link.passage? Document.offers
  cases l.anchorKind with
  | none => simp
  | some kind =>
      cases kind with
      | header =>
          simp only [Document.section?, Option.isSome_map]
          rw [hd.isSome_findHeading_iff, List.any_eq_true]
      | block =>
          simp only [Document.block?, Option.isSome_map, Document.findBlockAnchor]
          rw [List.isSome_find?]

end Citations

/-
**Carets cite and declare at once.**

A caret with a name is a citation and a block anchor.  Two scans find it: one among the citations of
the line, which leaves out what lies inside other citations, and one among its anchors, where the
name at the end of the line is read apart from the others.  Wherever the first finds a name, the
second finds the same one: both read all characters of a name that there are, and neither takes a
number for one.

Main definitions:

* `Citations.Anchor.IsName` — what may stand behind a caret;
* `Citations.Document.Declares` — what a document has to offer on a name that it cites.

Main results:

* `Citations.Anchor.exists_mem_ofLine_of_caret` — a citation by a caret is an anchor of its line;
* `Citations.Anchor.isName_of_mem_ofLine` — no anchor behind a caret is a number;
* `Citations.Document.caretLinks_declared` — **every citation by a caret is declared**.
-/

import Citations.Proofs.Document.BlockText
import Citations.Proofs.Document.Position

set_option relaxedAutoImplicit false
set_option autoImplicit false

namespace Citations

open Text

namespace Anchor

variable {prev : Option Char} {cs line : List Char} {name : String} {n number : Nat} {a : Anchor}

/-! ### Names behind carets -/

/-- A name behind a caret: it consists of letters, digits, underscores and hyphens, and not of
digits alone. -/
structure IsName (name : String) : Prop where
  isAnchorChar : ∀ c ∈ name.toList, Citation.isAnchorChar c = true
  notNumber : ∃ c ∈ name.toList, c.isDigit = false

theorem IsName.ne_empty (h : IsName name) : name ≠ "" := by
  obtain ⟨c, hc, -⟩ := h.notNumber
  rintro rfl
  simp at hc

theorem isName_of_all (hchars : ∀ c ∈ name.toList, Citation.isAnchorChar c = true)
    (hdigits : name.toList.all Char.isDigit = false) : IsName name := by
  obtain ⟨c, hc, hdigit⟩ := List.all_eq_false.1 hdigits
  exact ⟨hchars, c, hc, Bool.eq_false_iff.2 hdigit⟩

/-- All characters that a name can have, from behind the caret on. -/
def nameBehindCaret (cs : List Char) : String :=
  String.ofList (cs.tail.takeWhile Citation.isAnchorChar)

theorem eq_nameBehindCaret_of_readTrailing (h : readTrailing prev cs = some (name, n)) :
    name = nameBehindCaret cs := by
  unfold readTrailing at h
  split at h
  · dsimp only at h
    split at h
    · cases h
      rfl
    · cases h
  · cases h

theorem eq_nameBehindCaret_of_caretName {chars : List Char}
    (h : Citation.caretName cs = some chars) : String.ofList chars = nameBehindCaret cs := by
  unfold Citation.caretName at h
  split at h
  · rename_i c cs
    split at h
    · rename_i hc
      have hfirst : Citation.isAnchorChar c = true := by simp [Citation.isAnchorChar, hc]
      cases h
      rw [nameBehindCaret, List.tail_cons, List.takeWhile_cons_of_pos hfirst]
    · cases h
  · cases h

theorem all_isDigit_of_isFalseCaret {chars after : List Char}
    (h : ¬ Citation.isFalseCaret chars after = true) : chars.all Char.isDigit = false :=
  Bool.eq_false_iff.2 fun hall => h (by simp [Citation.isFalseCaret, hall])

/-- A citation by a caret takes all of the name, which is not a number. -/
theorem name_of_caret {b : Citation.Body} (h : Citation.caret prev cs = some (some b, n)) :
    b.anchor = some (nameBehindCaret cs) ∧ IsName (nameBehindCaret cs) := by
  unfold Citation.caret at h
  split at h
  · obtain ⟨chars, hchars, hbody⟩ := Option.map_eq_some_iff.1 h
    obtain ⟨-, -, hplain⟩ := Citation.caretName_eq_some hchars
    rw [← eq_nameBehindCaret_of_caretName hchars]
    simp only [Prod.mk.injEq] at hbody
    obtain ⟨hbody, -⟩ := hbody
    split at hbody
    · cases hbody
    · rename_i hfalse
      cases hbody
      have hdigits := all_isDigit_of_isFalseCaret hfalse
      exact ⟨rfl, isName_of_all (by simpa using hplain) (by simpa using hdigits)⟩
  · cases h

/-! ### The anchors of a line -/

theorem name_of_trailing {m : Found String} (h : trailing line = some m) :
    m.value = nameBehindCaret (line.drop m.start) ∧ IsName m.value := by
  rw [trailing, Option.filter_eq_some_iff, Bool.and_eq_true, Bool.not_eq_true'] at h
  obtain ⟨hfound, hdigits, -⟩ := h
  obtain ⟨prev, n, hread⟩ := exists_read_drop_of_mem_findAll (List.mem_of_head? hfound)
  exact ⟨eq_nameBehindCaret_of_readTrailing hread,
    isName_of_all (startsWithName_of_readTrailing hread).isAnchorChar hdigits⟩

theorem isName_of_mem_inline {m : Found String} (h : m ∈ inline line) : IsName m.value := by
  obtain ⟨found, hfound, hm⟩ := List.mem_filterMap.1 h
  split at hm
  · cases hm
  · obtain ⟨b, hb, hm⟩ := Option.bind_eq_some_iff.1 hm
    obtain ⟨name, hname, rfl⟩ := Option.map_eq_some_iff.1 hm
    obtain ⟨prev, n, hread⟩ := exists_read_drop_of_mem_findAll hfound
    rw [hb] at hread
    obtain ⟨hanchor, hisName⟩ := name_of_caret hread
    cases hname.symm.trans hanchor
    exact hisName

/-- **No anchor behind a caret is a number.** -/
theorem isName_of_mem_ofLine (h : a ∈ ofLine number line) (hform : a.form = .block none) :
    IsName a.id := by
  simp only [ofLine, List.mem_append, List.mem_map, List.mem_filter] at h
  rcases h with (⟨m, hm, rfl⟩ | ⟨m, ⟨hm, -⟩, rfl⟩) | ⟨m, hm, rfl⟩
  · exact (name_of_trailing (Option.mem_toList.1 hm)).2
  · exact isName_of_mem_inline hm
  · cases hform

/-- A citation by a caret was read outside of code. -/
theorem exists_found_of_caret {c : Citation} (h : c ∈ citations line) (hkind : c.kind = .caret) :
    ∃ m ∈ findAll Citation.caret line, ∃ b, m.value = some b ∧ c.anchor = b.anchor ∧
      c.start = m.start := by
  obtain ⟨r, hr, more, hc⟩ :=
    Citation.exists_of_mem_collect ((List.mergeSort_perm _ _).mem_iff.1 h)
  obtain ⟨m, hm, hc⟩ := List.mem_filterMap.1 hc
  split at hc
  · cases hc
  · obtain ⟨b, hb, rfl⟩ := Option.map_eq_some_iff.1 hc
    simp only [Citation.readers, List.mem_cons, List.not_mem_nil, or_false] at hr
    rcases hr with rfl | rfl | rfl | rfl
    · cases hkind
    · cases hkind
    · cases hkind
    · exact ⟨m, hm, b, hb, rfl, rfl⟩

/-- **A citation by a caret is an anchor of its line**, of the same name and in the same place. -/
theorem exists_mem_ofLine_of_caret {c : Citation} (h : c ∈ citations line)
    (hkind : c.kind = .caret) (number : Nat) :
    ∃ a ∈ ofLine number line, a.form = .block none ∧ c.anchor = some a.id ∧ a.column = c.start := by
  have hcode := inSpans_codeSpans_of_mem_citations h
  obtain ⟨m, hm, b, hb, hanchor, hstart⟩ := exists_found_of_caret h hkind
  obtain ⟨prev, n, hread⟩ := exists_read_drop_of_mem_findAll hm
  rw [hb] at hread
  have hname := (name_of_caret hread).1
  rw [hstart] at hcode
  rw [hanchor, hname, hstart]
  -- the name at the end of the line is left out of the others, as it is there already
  cases hlast : (trailing line).any fun t => t.start == m.start with
  | true =>
      obtain ⟨t, ht, hplace⟩ := (Option.any_eq_true _ _).1 hlast
      have hplace : t.start = m.start := by simpa using hplace
      refine ⟨⟨t.value, number, t.start, .block none⟩, ?_, rfl, ?_, hplace⟩
      · simp [ofLine, ht]
      · rw [(name_of_trailing ht).1, hplace]
  | false =>
      refine ⟨⟨nameBehindCaret (line.drop m.start), number, m.start, .block none⟩, ?_,
        rfl, rfl, rfl⟩
      have hinline : ⟨m.start, m.stop, nameBehindCaret (line.drop m.start)⟩ ∈ inline line :=
        List.mem_filterMap.2 ⟨m, hm, by simp [hcode, hb, hname]⟩
      simp only [ofLine, List.mem_append, List.mem_map, List.mem_filter]
      exact .inl (.inr ⟨_, ⟨hinline, by rw [hlast]; rfl⟩, rfl⟩)

end Anchor

/-! ### The carets of a document -/

namespace Document

variable {d : Document} {a : Anchor} {dialect : Markdown.Dialect} {cwd path content : String}

/-- What is read on a line that is not excluded is found. -/
theorem mem_scanLines_of_getElem? {α : Type} {excluded : Nat → Bool}
    {read : Nat → List Char → List α} {x : α} {ls : List (List Char)} {l : List Char}
    {index i : Nat} (hl : ls[i]? = some l) (hexcluded : excluded (index + i) = false)
    (hx : x ∈ read (index + i + 1) (chomp l)) : x ∈ scanLines excluded read index ls := by
  induction ls generalizing index i with
  | nil => cases hl
  | cons l' ls ih =>
      rw [scanLines, List.mem_append]
      cases i with
      | zero =>
          cases hl
          rw [Nat.add_zero] at hexcluded hx
          rw [hexcluded]
          exact .inl hx
      | succ i =>
          rw [show index + (i + 1) = index + 1 + i by omega] at hexcluded hx
          exact .inr (ih hl hexcluded hx)

/-- **What a document has to offer on a name that it cites by a caret**: a block anchor at the very
place, which goes by the name with the caret and without it, and a block that it stands for. -/
structure Declares (d : Document) (l : Link) (name : String) : Prop where
  anchor : ∃ a ∈ d.anchors, a.kind = .block ∧ a.id = name ∧ a.line = l.line ∧ a.column = l.column
  hasAnchor : d.hasAnchor name = true
  hasAnchor_caret : d.hasAnchor ("^" ++ name) = true
  block : ∃ text, d.block? name = some text

/-- A document offers all of this on the name of a block anchor. -/
theorem declares_of_mem_anchors {l : Link} (ha : a ∈ d.anchors) (hform : a.form = .block none)
    (hname : Anchor.IsName a.id) (hline : a.line = l.line) (hcolumn : a.column = l.column) :
    d.Declares l a.id := by
  have hkind : a.kind = .block := by rw [Anchor.kind, hform]
  refine ⟨⟨a, ha, hkind, rfl, hline, hcolumn⟩, hasAnchor_of_mem ha hname.ne_empty, ?_, ?_⟩
  · have hanswers : a.answersTo ("^" ++ a.id) = true := by
      simp [Anchor.answersTo, hform]
    have hne : ("^" ++ a.id != "") = true := by simp [String.append_eq_empty_iff]
    rw [hasAnchor, hne, Bool.true_and]
    exact List.any_eq_true.2 ⟨a, ha, hanswers⟩
  · have hcaret : a.id.toList.head? ≠ some '^' := by
      intro hhead
      have hchar := hname.isAnchorChar '^' (List.mem_of_head? hhead)
      revert hchar
      decide
    have hsome : (d.findBlockAnchor a.id).isSome := by
      rw [findBlockAnchor, withoutCaret_of_head? hcaret]
      exact List.find?_isSome.2 ⟨a, ha, by simp [hkind]⟩
    obtain ⟨o, ho⟩ := Option.isSome_iff_exists.1 hsome
    exact ⟨_, block?_of_findBlockAnchor ho⟩

/-- **Every citation by a caret is declared**: the document offers all that there is to offer on its
name.  Neither such a citation nor an anchor behind a caret is a number. -/
theorem caretLinks_declared (dialect : Markdown.Dialect) (cwd path content : String) :
    (∀ l ∈ (parse dialect cwd path content).links, l.kind = .caret →
      ∃ name, l.target.anchor = some name ∧ Anchor.IsName name ∧
        (parse dialect cwd path content).Declares l name) ∧
    ∀ a ∈ (parse dialect cwd path content).anchors, a.form = .block none → Anchor.IsName a.id := by
  refine ⟨fun l hl hkind => ?_, fun a ha hform => ?_⟩
  · obtain ⟨i, line, -, hline, hexcluded, hl⟩ := exists_of_mem_scanLines hl
    rw [Nat.sub_zero] at hline
    obtain ⟨c, hc, markerStop, rfl⟩ := Link.exists_of_mem_ofCitations hl
    rw [String.toList_ofList] at hc
    obtain ⟨a, ha, hform, hanchor, hcolumn⟩ := Anchor.exists_mem_ofLine_of_caret hc hkind (i + 1)
    have hname := Anchor.isName_of_mem_ofLine ha hform
    have hnumber := Anchor.line_of_mem_ofLine ha
    have hmem : a ∈ (parse dialect cwd path content).anchors := by
      refine List.mem_append_left _ (mem_scanLines_of_getElem? hline ?_ ?_)
      · rwa [Nat.zero_add]
      · rwa [Nat.zero_add]
    exact ⟨a.id, hanchor, hname, declares_of_mem_anchors hmem hform hname hnumber hcolumn⟩
  · rcases List.mem_append.1 ha with ha | ha
    · obtain ⟨i, line, -, -, -, ha⟩ := exists_of_mem_scanLines ha
      exact Anchor.isName_of_mem_ofLine ha hform
    · obtain ⟨h, -, rfl⟩ := List.mem_map.1 ha
      have hkind := Anchor.kind_ofHeading h
      rw [Anchor.kind, hform] at hkind
      cases hkind

end Document

end Citations

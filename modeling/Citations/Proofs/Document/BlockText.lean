/-
**What a block anchor stands for.**

A block anchor is declared on one line of the document, by a caret and its name or by a highlight,
and it stands for the smallest block around that line.  The lines of the block structure and those
of the document are not always the same, so there may be no such block; then the anchor stands for
its line.  Either way the declaration is part of the text: it ends in a character that is not blank,
and so it stays when the white space at the end is removed.

Main definitions:

* `Citations.Anchor.declaration` — the text that declares a block anchor;
* `Citations.Anchor.StartsWithHighlight` — whether a text starts with a highlight;
* `Citations.Document.SmallestAround` — **the lines of the smallest block around a line**.

Main results:

* `Citations.Text.infix_trimEnd` — what does not end in white space stays at the end of a text;
* `Citations.Anchor.readEmphasis_eq_some_iff` — a highlight is read where there is one;
* `Citations.Anchor.declared_of_mem_ofLine` — a block anchor is declared where it says;
* `Citations.Document.smallestAround_blockLines` — a block anchor stands for the smallest block
  around its line;
* `Citations.Document.IsParsed.block?_declares` — **a block anchor stands for the block that
  declares it**.
-/

import Citations.Document.Query
import Citations.Proofs.Link.Brackets
import Citations.Proofs.Text.Lines
import Citations.Proofs.Text.Scan
import Mathlib.Data.List.Infix

set_option relaxedAutoImplicit false
set_option autoImplicit false

namespace Citations

open Text

/-! ### Texts that do not end in white space -/

namespace Text

/-- What does not end in white space stays at the end of a text. -/
theorem infix_trimEnd {cs s : List Char} (h : s <:+: cs)
    (hlast : ∀ c ∈ s.getLast?, isBlank c = false) : s <:+: trimEnd cs := by
  obtain ⟨front, rest, happend⟩ := h
  obtain ⟨e, hsplit, he⟩ := exists_dropWhile_reverse_append isBlank cs
  change cs = trimEnd cs ++ e at hsplit
  rw [hsplit] at happend
  rcases List.append_eq_append_iff.1 happend with ⟨t, ht, -⟩ | ⟨t, ht, hblank⟩
  · exact ⟨front, t, ht.symm⟩
  · -- a part of it that is removed would end in white space
    rcases List.eq_nil_or_concat t with rfl | ⟨t, c, rfl⟩
    · rw [List.append_nil] at ht
      exact ⟨front, [], by rw [List.append_nil, ht]⟩
    · rcases List.eq_nil_or_concat s with rfl | ⟨s, x, rfl⟩
      · exact List.nil_infix
      · have hx : x = c := by
          have hends := congrArg List.getLast? ht
          simpa using hends
        have hc : isBlank c = true := he c (by rw [hblank]; simp)
        rw [← hx, hlast x (by simp)] at hc
        cases hc

end Text

/-! ### Declarations of block anchors -/

theorem Citation.isBlank_of_isAnchorChar {c : Char} (h : isAnchorChar c = true) :
    isBlank c = false := by
  have hcode : 0x2d ≤ c.toNat ∧ c.toNat ≤ 0x7a := by
    delta isAnchorChar Char.isAlphanum Char.isAlpha Char.isUpper Char.isLower Char.isDigit at h
    simp only [Bool.or_eq_true, Bool.and_eq_true, decide_eq_true_eq, beq_iff_eq,
      UInt32.le_iff_toNat_le, ge_iff_le] at h
    change 0x2d ≤ c.val.toNat ∧ c.val.toNat ≤ 0x7a
    rcases h with (((h | h) | h) | rfl) | rfl
    · exact ⟨Nat.le_trans (by decide) h.1, Nat.le_trans h.2 (by decide)⟩
    · exact ⟨Nat.le_trans (by decide) h.1, Nat.le_trans h.2 (by decide)⟩
    · exact ⟨Nat.le_trans (by decide) h.1, Nat.le_trans h.2 (by decide)⟩
    · decide
    · decide
  refine Bool.eq_false_iff.2 fun hblank => ?_
  obtain ⟨r, hr, hle, hge⟩ := (inRanges_iff _ _).1 hblank
  have hapart : ∀ r ∈ blankRanges, r.2 < 0x2d ∨ 0x7a < r.1 := by decide
  have := hapart r hr
  omega

namespace Anchor

variable {prev : Option Char} {cs line : List Char} {name : String} {n number : Nat} {a : Anchor}

/-- The text that declares a block anchor. -/
def declaration (a : Anchor) : String :=
  match a.form with
  | .block (some _) => "==**" ++ a.id ++ "**=="
  | _ => "^" ++ a.id

/-- Whether a text starts with a caret and a name. -/
structure StartsWithName (cs : List Char) (name : String) : Prop where
  isPrefix : ("^" ++ name).toList <+: cs
  isAnchorChar : ∀ c ∈ name.toList, Citation.isAnchorChar c = true

theorem StartsWithName.isBlank_getLast (h : StartsWithName cs name) :
    ∀ c ∈ ("^" ++ name).toList.getLast?, isBlank c = false := by
  intro c hc
  have hmem : c ∈ '^' :: name.toList := by simpa using List.mem_of_getLast? hc
  rcases List.mem_cons.1 hmem with rfl | hmem
  · decide
  · exact Citation.isBlank_of_isAnchorChar (h.isAnchorChar c hmem)

theorem startsWithName_of_readTrailing (h : readTrailing prev cs = some (name, n)) :
    StartsWithName cs name := by
  unfold readTrailing at h
  split at h
  · dsimp only at h
    split at h
    · cases h
      refine ⟨?_, fun c hc => ?_⟩
      · simpa using List.takeWhile_prefix _
      · exact List.mem_takeWhile_imp (by simpa using hc)
    · cases h
  · cases h

theorem startsWithName_of_caret {b : Citation.Body} (h : Citation.caret prev cs = some (some b, n))
    (hname : b.anchor = some name) : StartsWithName cs name := by
  obtain ⟨read, after, rfl, hread, -, -, -, hanchor⟩ := Citation.caret_eq_some h
  cases hanchor.symm.trans hname
  refine ⟨?_, fun c hc => hread c (by simpa using hc)⟩
  simp

/-- The text of a highlight, by its inside. -/
def highlight (inside : List Char) : List Char := "==**".toList ++ inside ++ "**==".toList

/-- Whether a text starts with a highlight: its inside is not empty and holds no asterisk. -/
structure StartsWithHighlight (cs inside : List Char) : Prop where
  isPrefix : highlight inside <+: cs
  ne_nil : inside ≠ []
  notMem : '*' ∉ inside

@[simp] theorem length_highlight (inside : List Char) :
    (highlight inside).length = inside.length + 8 := by
  simp [highlight]

theorem highlight_append (inside rest : List Char) :
    highlight inside ++ rest =
      '=' :: '=' :: '*' :: '*' :: (inside ++ '*' :: '*' :: '=' :: '=' :: rest) := by
  simp [highlight]

/-- **A highlight is read where there is one**, and all of it. -/
theorem readEmphasis_eq_some_iff {v : String × String} :
    readEmphasis prev cs = some (v, n) ↔
      ∃ inside, StartsWithHighlight cs inside ∧
        v = (String.ofList inside, String.ofList (highlight inside)) ∧ n = inside.length + 8 := by
  constructor
  · intro h
    unfold readEmphasis at h
    split at h
    · rename_i rest
      dsimp only at h
      split at h
      · rename_i more hmore
        split at h
        · cases h
        · rename_i hne
          cases h
          have hsplit := List.takeWhile_append_dropWhile (p := (· ≠ '*')) (l := rest)
          have hstar : '*' ∉ rest.takeWhile fun c => decide (c ≠ '*') := fun hmem => by
            simpa using List.mem_takeWhile_imp hmem
          rw [hmore] at hsplit
          generalize rest.takeWhile (fun c => decide (c ≠ '*')) = inside at hsplit hne hstar ⊢
          subst hsplit
          have hwhole := highlight_append inside more
          refine ⟨inside, ⟨⟨more, hwhole⟩, by simpa using hne, hstar⟩, ?_, rfl⟩
          rw [← hwhole, ← length_highlight, List.take_left]
      · cases h
    · cases h
  · rintro ⟨inside, ⟨⟨rest, rfl⟩, hne, hstar⟩, rfl, rfl⟩
    have hinside : ∀ c ∈ inside, decide (c ≠ '*') = true := fun c hc =>
      decide_eq_true fun heq => hstar (heq ▸ hc)
    have htake : (inside ++ '*' :: '*' :: '=' :: '=' :: rest).takeWhile (· ≠ '*') = inside := by
      rw [List.takeWhile_append_of_pos hinside]
      simp
    have hdrop : (inside ++ '*' :: '*' :: '=' :: '=' :: rest).dropWhile (· ≠ '*') =
        '*' :: '*' :: '=' :: '=' :: rest := by
      rw [List.dropWhile_append_of_pos hinside]
      simp
    have hempty : ¬ inside.isEmpty = true := by simpa using hne
    rw [highlight_append]
    simp only [readEmphasis, htake, hdrop, if_neg hempty]
    rw [← highlight_append, ← length_highlight, List.take_left]

theorem prefix_of_readEmphasis {v : String × String} (h : readEmphasis prev cs = some (v, n)) :
    ("==**" ++ v.1 ++ "**==").toList <+: cs := by
  obtain ⟨inside, hstarts, rfl, -⟩ := readEmphasis_eq_some_iff.1 h
  simpa [highlight] using hstarts.isPrefix

/-- **A block anchor is declared where it says**, by a text that does not end in white space. -/
theorem declared_of_mem_ofLine (h : a ∈ ofLine number line) :
    a.declaration.toList <+: line.drop a.column ∧
      ∀ c ∈ a.declaration.toList.getLast?, isBlank c = false := by
  have hnamed {m : Found String} (h : StartsWithName (line.drop m.start) m.value) :
      let a : Anchor := ⟨m.value, number, m.start, .block none⟩
      a.declaration.toList <+: line.drop a.column ∧
        ∀ c ∈ a.declaration.toList.getLast?, isBlank c = false :=
    ⟨h.isPrefix, h.isBlank_getLast⟩
  simp only [ofLine, List.mem_append, List.mem_map, List.mem_filter] at h
  rcases h with (⟨m, hm, rfl⟩ | ⟨m, ⟨hm, -⟩, rfl⟩) | ⟨m, hm, rfl⟩
  · rw [Option.mem_toList, trailing, Option.filter_eq_some_iff] at hm
    obtain ⟨prev, n, hread⟩ := exists_read_drop_of_mem_findAll (List.mem_of_head? hm.1)
    exact hnamed (startsWithName_of_readTrailing hread)
  · rw [inline, List.mem_filterMap] at hm
    obtain ⟨found, hfound, hm⟩ := hm
    split at hm
    · cases hm
    · obtain ⟨b, hb, hm⟩ := Option.bind_eq_some_iff.1 hm
      obtain ⟨name, hname, rfl⟩ := Option.map_eq_some_iff.1 hm
      obtain ⟨prev, n, hread⟩ := exists_read_drop_of_mem_findAll hfound
      rw [hb] at hread
      exact hnamed (startsWithName_of_caret hread hname)
  · obtain ⟨prev, n, hread⟩ := exists_read_drop_of_mem_findAll hm
    refine ⟨prefix_of_readEmphasis hread, fun c hc => ?_⟩
    have hlast : (("==**" ++ m.value.1) ++ "**==").toList.getLast? = some '=' := by
      rw [String.toList_append, List.getLast?_append]
      rfl
    cases hlast.symm.trans hc
    decide

end Anchor

namespace Document

variable {d : Document} {a : Anchor}

/-! ### The smallest block around a line -/

/-- **The lines of the smallest block around a line**, from the first one up to, but not including,
the last one: those of the first one of the smallest blocks that cover the line, or the line alone
if no block covers it.  Lines count from zero. -/
inductive SmallestAround (d : Document) (line : Nat) : (first stop : Nat) → Prop where
  | block {before after : List Markdown.Block} {b : Markdown.Block}
      (blocks : d.blocks = before ++ b :: after) (covers : b.covers line = true)
      (before_lt : ∀ c ∈ before, c.covers line = true → b.size < c.size)
      (after_le : ∀ c ∈ after, c.covers line = true → b.size ≤ c.size) :
      SmallestAround d line b.first b.stop
  | alone (covers : ∀ c ∈ d.blocks, c.covers line = false) : SmallestAround d line line (line + 1)

theorem SmallestAround.covers {line first stop : Nat} (h : d.SmallestAround line first stop) :
    first ≤ line ∧ line < stop := by
  cases h with
  | block _ hcovers => simpa [Markdown.Block.covers] using hcovers
  | alone _ => exact ⟨Nat.le_refl _, Nat.lt_succ_self _⟩

/-- A block anchor stands for the smallest block around its line. -/
theorem smallestAround_blockLines (hline : 1 ≤ a.line) :
    d.SmallestAround (a.line - 1) (d.blockLines a).1 (d.blockLines a).2 := by
  unfold blockLines
  cases hinner : Markdown.innermost d.blocks (a.line - 1) with
  | some b =>
      obtain ⟨before, after, happend, hcovers, hbefore, hafter⟩ :=
        Markdown.exists_append_of_innermost hinner
      exact .block happend hcovers hbefore hafter
  | none =>
      have halone : d.SmallestAround (a.line - 1) (a.line - 1) (a.line - 1 + 1) :=
        .alone fun c hc => Markdown.covers_eq_false_of_innermost hinner hc
      rwa [Nat.sub_add_cancel hline] at halone

/-! ### The text of a block -/

/-- What a block anchor stands for: it is declared on one of the lines of the document, and the text
is that of the smallest block around this line, without the white space at its end.  The declaration
is part of the text. -/
structure StandsFor (d : Document) (a : Anchor) (text : String) : Prop where
  line_pos : 1 ≤ a.line
  declared : ∃ line, d.lines[a.line - 1]? = some line ∧ a.declaration.toList <+: line.drop a.column
  around : ∃ first stop, d.SmallestAround (a.line - 1) first stop ∧
    text.toList = trimEnd (slice d.lines first stop).flatten
  contained : a.declaration.toList <:+: text.toList

/-- A block anchor is declared on the line that it names. -/
theorem IsParsed.exists_line_of_block (hd : d.IsParsed) (ha : a ∈ d.anchors)
    (hkind : a.kind = .block) :
    ∃ line, 1 ≤ a.line ∧ d.lines[a.line - 1]? = some line ∧
      a ∈ Anchor.ofLine a.line (chomp line) := by
  obtain ⟨dialect, cwd, path, content, rfl⟩ := hd
  rcases List.mem_append.1 ha with ha | ha
  · obtain ⟨i, line, -, hline, -, ha⟩ := exists_of_mem_scanLines ha
    have hnumber := Anchor.line_of_mem_ofLine ha
    rw [hnumber]
    exact ⟨line, Nat.succ_pos i, hline, ha⟩
  · obtain ⟨h, -, rfl⟩ := List.mem_map.1 ha
    simp at hkind

theorem IsParsed.standsFor_linesText (hd : d.IsParsed) (ha : a ∈ d.anchors)
    (hkind : a.kind = .block) :
    d.StandsFor a (d.linesText (d.blockLines a).1 (d.blockLines a).2) := by
  obtain ⟨line, hpos, hline, hmem⟩ := hd.exists_line_of_block ha hkind
  obtain ⟨hdeclared, hlast⟩ := Anchor.declared_of_mem_ofLine hmem
  have haround := smallestAround_blockLines (d := d) hpos
  have hstarts : a.declaration.toList <+: line.drop a.column := by
    obtain ⟨e, happend, -⟩ := exists_chomp_append line
    have hchomp : chomp line <+: line := ⟨e, happend.symm⟩
    exact hdeclared.trans (hchomp.drop a.column)
  have hslice := mem_slice hline haround.covers.1 haround.covers.2
  have hinside : a.declaration.toList <:+:
      (slice d.lines (d.blockLines a).1 (d.blockLines a).2).flatten :=
    (hstarts.isInfix.trans (List.drop_suffix ..).isInfix).trans (List.infix_of_mem_flatten hslice)
  exact {
    line_pos := hpos
    declared := ⟨line, hline, hstarts⟩
    around := ⟨_, _, haround, String.toList_ofList⟩
    contained := (infix_trimEnd hinside hlast).trans (String.toList_ofList ▸ List.infix_refl _) }

theorem withoutCaret_of_head? {id : String} (hid : id.toList.head? ≠ some '^') :
    withoutCaret id = id := by
  unfold withoutCaret
  split
  · rename_i cs hcs
    rw [hcs] at hid
    exact absurd rfl hid
  · rfl

theorem block?_of_findBlockAnchor {name : String} (h : d.findBlockAnchor name = some a) :
    d.block? name = some (d.linesText (d.blockLines a).1 (d.blockLines a).2) := by
  rw [block?, h]
  rfl

/-- **A block anchor stands for the block that declares it.**  An id that does not start with a
caret is looked for with a caret or without one, and either way the first block anchor of that id is
found, and the text that it stands for. -/
theorem IsParsed.block?_declares (hd : d.IsParsed) {id : String}
    (hcaret : id.toList.head? ≠ some '^') (hid : ∃ a ∈ d.anchors, a.kind = .block ∧ a.id = id) :
    ∃ before a after text, d.anchors = before ++ a :: after ∧ a.kind = .block ∧ a.id = id ∧
      (∀ o ∈ before, o.kind = .block → o.id ≠ id) ∧
      d.block? id = some text ∧ d.block? ("^" ++ id) = some text ∧ d.StandsFor a text := by
  have hown : d.findBlockAnchor id = d.anchors.find? fun a => a.kind = .block ∧ a.id = id := by
    rw [findBlockAnchor, withoutCaret_of_head? hcaret]
  have hbehind : d.findBlockAnchor ("^" ++ id) = d.findBlockAnchor id := by
    have hcut : withoutCaret ("^" ++ id) = id := by simp [withoutCaret]
    rw [hown, findBlockAnchor, hcut]
  have hsome : (d.findBlockAnchor id).isSome := by
    obtain ⟨o, ho, hkind, rfl⟩ := hid
    rw [hown]
    exact List.find?_isSome.2 ⟨o, ho, by simp [hkind]⟩
  obtain ⟨a, hfind⟩ := Option.isSome_iff_exists.1 hsome
  obtain ⟨hfound, before, after, happend, hbefore⟩ :=
    List.find?_eq_some_iff_append.1 (hown.symm.trans hfind)
  obtain ⟨hkind, hid⟩ := of_decide_eq_true hfound
  have hmem : a ∈ d.anchors := by simp [happend]
  refine ⟨before, a, after, _, happend, hkind, hid, fun o ho hblock hoid => ?_,
    block?_of_findBlockAnchor hfind, block?_of_findBlockAnchor (hbehind.trans hfind),
    hd.standsFor_linesText hmem hkind⟩
  simpa [hblock, hoid] using hbefore o ho

/-- A document with the same name on two items of a list. -/
def itemized : Document :=
  parse .standard "/" "/itemized.md" "- one ^FR1\n  more\n- two ^FR1\n"

theorem IsParsed.block?_declares_itemized :
    (∃ a ∈ itemized.anchors, a.kind = .block ∧ a.id = "FR1") ∧
      itemized.block? "^FR1" = some "- one ^FR1\n  more" ∧
      ∃ a, a.id = "FR1" ∧ itemized.StandsFor a "- one ^FR1\n  more" := by
  have hid : ∃ a ∈ itemized.anchors, a.kind = .block ∧ a.id = "FR1" := by decide +kernel
  have htext : itemized.block? "FR1" = some "- one ^FR1\n  more" := by decide +kernel
  obtain ⟨-, a, -, text, -, -, hown, -, hplain, hcaret, hstands⟩ :=
    IsParsed.block?_declares ⟨_, _, _, _, rfl⟩ (by decide) hid
  cases hplain.symm.trans htext
  exact ⟨hid, hcaret, a, hown, hstands⟩

end Document

end Citations

/-
**Where the sections of a document end.**

The section of a heading goes on as long as the headings get deeper: it ends before the next heading
that is not deeper, or with the document.  Headings may rise and fall as they like, and still two
sections never overlap in part: the one that starts later ends with the other one at the latest, or
starts behind it.

Main definitions:

* `Citations.Document.Ordered` — whether the headings of a document stand one behind the other;
* `Citations.Document.EndsAt` — **where the section of a heading ends**.

Main results:

* `Citations.Document.EndsAt.unique` — a section ends at one place only;
* `Citations.Document.Ordered.endsAt_sectionStop` — the section ends where it is cut off;
* `Citations.Document.EndsAt.nested_or_apart` — two sections are nested or apart;
* `Citations.Document.IsParsed.sections_bounded` — **sections are exactly bounded, and nest**.
-/

import Citations.Document.Query
import Citations.Proofs.Text.Scan
import Mathlib.Data.List.Basic
import Mathlib.Data.List.Infix
import Mathlib.Order.Interval.Set.Basic

set_option relaxedAutoImplicit false
set_option autoImplicit false

namespace Citations.Document

open Text

variable {d : Document} {h a b : Heading} {stop s t : Nat}

/-- Whether the headings of a document stand one behind the other, on lines of the document. -/
structure Ordered (d : Document) : Prop where
  ascending : d.headings.Pairwise fun a b => a.line < b.line
  line_pos : ∀ h ∈ d.headings, 1 ≤ h.line
  line_le : ∀ h ∈ d.headings, h.line ≤ d.lines.length

/-- **Where the section of a heading ends**: as far as all headings are deeper, with the document or
before a heading that is not deeper.  Lines count from one, and `stop` is the last one. -/
structure EndsAt (d : Document) (h : Heading) (stop : Nat) : Prop where
  le_stop : h.line ≤ stop
  stop_le : stop ≤ d.lines.length
  deeper : ∀ o ∈ d.headings, h.line < o.line → o.line ≤ stop → h.level < o.level
  closed : stop = d.lines.length ∨ ∃ o ∈ d.headings, o.line = stop + 1 ∧ o.level ≤ h.level

/-! ### Ends of sections -/

namespace EndsAt

theorem not_lt (hs : d.EndsAt h s) (ht : d.EndsAt h t) : ¬ s < t := by
  intro hlt
  rcases hs.closed with hall | ⟨o, ho, hline, hlevel⟩
  · have := ht.stop_le
    omega
  · have hafter : h.line < o.line := by
      have := hs.le_stop
      omega
    exact Nat.not_lt.2 hlevel (ht.deeper o ho hafter (by omega))

/-- A section ends at one place only. -/
theorem unique (hs : d.EndsAt h s) (ht : d.EndsAt h t) : s = t :=
  Nat.le_antisymm (Nat.not_lt.1 (ht.not_lt hs)) (Nat.not_lt.1 (hs.not_lt ht))

/-- Of two sections, the one that starts later ends with the other one at the latest, or starts
behind it. -/
theorem le_or_lt (hb : b ∈ d.headings) (hs : d.EndsAt a s) (ht : d.EndsAt b t)
    (hle : a.line < b.line) : t ≤ s ∨ s < b.line := by
  by_contra hcross
  obtain ⟨hlt, hinside⟩ := not_or.1 hcross
  have hdeeper : a.level < b.level := hs.deeper b hb hle (Nat.not_lt.1 hinside)
  -- what closes the outer section would have closed the inner one
  rcases hs.closed with hall | ⟨o, ho, hline, hlevel⟩
  · have := ht.stop_le
    omega
  · have := ht.deeper o ho (by omega) (by omega)
    omega

/-- **Two sections are nested or apart.** -/
theorem nested_or_apart (ha : a ∈ d.headings) (hb : b ∈ d.headings) (hs : d.EndsAt a s)
    (ht : d.EndsAt b t) :
    (∀ n ∈ Set.Icc a.line s, n ∉ Set.Icc b.line t) ∨ Set.Icc b.line t ⊆ Set.Icc a.line s ∨
      Set.Icc a.line s ⊆ Set.Icc b.line t := by
  rcases Nat.lt_trichotomy a.line b.line with hlt | heq | hgt
  · rcases le_or_lt hb hs ht hlt with hin | hout
    · exact .inr (.inl (Set.Icc_subset_Icc hlt.le hin))
    · exact .inl fun n hn hn' => Nat.not_lt.2 (hn'.1.trans hn.2) hout
  · rcases Nat.le_total s t with hle | hle
    · exact .inr (.inr (Set.Icc_subset_Icc heq.ge hle))
    · exact .inr (.inl (Set.Icc_subset_Icc heq.le hle))
  · rcases le_or_lt ha ht hs hgt with hin | hout
    · exact .inr (.inr (Set.Icc_subset_Icc hgt.le hin))
    · exact .inl fun n hn hn' => Nat.not_lt.2 (hn.1.trans hn'.2) hout

end EndsAt

/-! ### Sections as they are cut off -/

namespace Ordered

/-- A heading parts the headings into those before it and those behind it. -/
theorem exists_append_cons (ho : d.Ordered) (hh : h ∈ d.headings) :
    ∃ before after, d.headings = before ++ h :: after ∧
      d.headings.drop (d.headings.idxOf h + 1) = after ∧
      (∀ o ∈ before, o.line < h.line) ∧ (h :: after).Pairwise fun a b => a.line < b.line := by
  obtain ⟨before, after, happend, hfirst⟩ := List.eq_append_cons_of_mem hh
  have hascending := ho.ascending
  rw [happend] at hascending
  obtain ⟨-, hbehind, hcross⟩ := List.pairwise_append.1 hascending
  refine ⟨before, after, happend, ?_, fun o hbefore => hcross o hbefore h (List.mem_cons_self ..),
    hbehind⟩
  rw [happend, List.idxOf_append_of_notMem hfirst, List.idxOf_cons_self, Nat.add_zero,
    List.drop_length_add_append, List.drop_one, List.tail_cons]

/-- **The section of a heading ends where it is cut off.** -/
theorem endsAt_sectionStop (ho : d.Ordered) (hh : h ∈ d.headings) :
    d.EndsAt h (d.sectionStop h) := by
  obtain ⟨before, after, happend, hdrop, hbefore, hbehind⟩ := ho.exists_append_cons hh
  obtain ⟨hlater, hafter⟩ := List.pairwise_cons.1 hbehind
  have hmem : ∀ o ∈ d.headings, h.line < o.line → o ∈ after := by
    intro o ho hlt
    rw [happend, List.mem_append, List.mem_cons] at ho
    rcases ho with ho | rfl | ho
    · exact absurd hlt (Nat.lt_asymm (hbefore o ho))
    · exact absurd hlt (Nat.lt_irrefl _)
    · exact ho
  rw [sectionStop, hdrop]
  cases hfind : after.find? fun o => o.level ≤ h.level with
  | none =>
      refine ⟨ho.line_le h hh, Nat.le_refl _, fun o ho hlt _ => ?_, .inl rfl⟩
      exact Nat.not_le.1 (of_decide_eq_false (Bool.eq_false_iff.2
        (List.find?_eq_none.1 hfind o (hmem o ho hlt))))
  | some c =>
      obtain ⟨hlevel, front, rest, rfl, hfront⟩ := List.find?_eq_some_iff_append.1 hfind
      have hc : c ∈ d.headings := by simp [happend]
      have hclt : h.line < c.line := hlater c (by simp)
      change d.EndsAt h (c.line - 1)
      refine ⟨by omega, by have := ho.line_le c hc; omega, fun o ho hlt hle => ?_,
        .inr ⟨c, hc, by omega, of_decide_eq_true hlevel⟩⟩
      -- what is not before the closing heading stands behind its line
      rcases List.mem_append.1 (hmem o ho hlt) with hin | hin
      · simpa using hfront o hin
      · have hcle : c.line ≤ o.line := by
          rcases List.mem_cons.1 hin with rfl | hin
          · exact Nat.le_refl _
          · exact (List.rel_of_pairwise_cons (List.pairwise_append.1 hafter).2.1 hin).le
        omega

end Ordered

/-! ### Headings that are found -/

/-- A heading that is found is one of the headings of the level that is asked for. -/
theorem mem_headingsAt_of_findHeading {name : String} {level : Option Int}
    (hfind : d.findHeading name level = some h) : h ∈ d.headingsAt level := by
  unfold findHeading at hfind
  dsimp only at hfind
  rcases Option.or_eq_some_iff.1 hfind with htext | ⟨-, hfind⟩
  · exact List.mem_of_find?_eq_some htext
  · rcases Option.or_eq_some_iff.1 hfind with hanchor | ⟨-, hplain⟩
    · obtain ⟨a, -, ha⟩ := List.exists_of_findSome?_eq_some hanchor
      split at ha
      · exact List.mem_reverse.1 (List.mem_of_find?_eq_some ha)
      · cases ha
    · split at hplain
      · cases hplain
      · exact List.mem_of_find?_eq_some hplain

/-- **Sections are exactly bounded, and nest.**  Where the headings of a document stand one behind
the other, each section has one end, which is before the next heading that is not deeper, or that of
the document.  A heading that is found is one of the document and has the level that is asked for;
the text is that of its lines up to the end, which are in one piece in the content.  Two sections
are apart, or one of them contains the other. -/
theorem IsParsed.sections_bounded (hd : d.IsParsed) (ho : d.Ordered) :
    (∀ h ∈ d.headings, ∃! stop, d.EndsAt h stop) ∧
    (∀ name level h, d.findHeading name level = some h →
      h ∈ d.headings ∧ (∀ n ∈ level, n = (h.level : Int)) ∧ ∀ stop, d.EndsAt h stop →
        d.section? name level =
          some (String.ofList (trimEnd (slice d.lines (h.line - 1) stop).flatten)) ∧
        (slice d.lines (h.line - 1) stop).flatten <:+: d.content.toList) ∧
    ∀ a ∈ d.headings, ∀ b ∈ d.headings, ∀ s t, d.EndsAt a s → d.EndsAt b t →
      (∀ n ∈ Set.Icc a.line s, n ∉ Set.Icc b.line t) ∨ Set.Icc b.line t ⊆ Set.Icc a.line s ∨
        Set.Icc a.line s ⊆ Set.Icc b.line t := by
  refine ⟨fun h hh => ⟨_, ho.endsAt_sectionStop hh,
      fun s hs => hs.unique (ho.endsAt_sectionStop hh)⟩, fun name level h hfind => ?_,
    fun a ha b hb s t => EndsAt.nested_or_apart ha hb⟩
  obtain ⟨hh, hlevel⟩ := List.mem_filter.1 (mem_headingsAt_of_findHeading hfind)
  refine ⟨hh, fun n hn => ?_, fun stop hstop => ⟨?_, ?_⟩⟩
  · rw [Option.mem_def] at hn
    rw [hn] at hlevel
    exact of_decide_eq_true hlevel
  · rw [section?, hfind, hstop.unique (ho.endsAt_sectionStop hh)]
    rfl
  · obtain ⟨dialect, cwd, path, content, rfl⟩ := hd
    exact flatten_lines_parse dialect cwd path content ▸ (slice_isInfix _ _ _).flatten

/-- A document with a section in a section. -/
def outlined : Document := parse .standard "/" "/outlined.md" "# A\nx\n## B\ny\n# C\n"

theorem IsParsed.sections_bounded_outlined :
    outlined.Ordered ∧ outlined.EndsAt ⟨1, "A", 1⟩ 4 ∧ outlined.EndsAt ⟨2, "B", 3⟩ 4 ∧
      outlined.section? "A" none = some "# A\nx\n## B\ny" ∧
      ((∀ n ∈ Set.Icc 1 4, n ∉ Set.Icc 3 4) ∨ Set.Icc 3 4 ⊆ Set.Icc 1 4 ∨
        Set.Icc 1 4 ⊆ Set.Icc 3 4) := by
  have hordered : outlined.Ordered := ⟨by decide +kernel, by decide +kernel, by decide +kernel⟩
  have houter : outlined.EndsAt ⟨1, "A", 1⟩ 4 :=
    ⟨by decide, by decide +kernel, by decide +kernel, .inr ⟨⟨1, "C", 5⟩, by decide +kernel⟩⟩
  have hinner : outlined.EndsAt ⟨2, "B", 3⟩ 4 :=
    ⟨by decide, by decide +kernel, by decide +kernel, .inr ⟨⟨1, "C", 5⟩, by decide +kernel⟩⟩
  obtain ⟨-, hfound, hnest⟩ := IsParsed.sections_bounded ⟨_, _, _, _, rfl⟩ hordered
  obtain ⟨-, -, htext⟩ := hfound "A" none ⟨1, "A", 1⟩ (by decide +kernel)
  exact ⟨hordered, houter, hinner, (htext 4 houter).1.trans (by decide +kernel),
    hnest ⟨1, "A", 1⟩ (by decide +kernel) ⟨2, "B", 3⟩ (by decide +kernel) 4 4 houter hinner⟩

end Citations.Document

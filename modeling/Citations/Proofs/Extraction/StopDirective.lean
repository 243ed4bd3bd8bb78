/-
**When a stop directive counts.**

A link has one marker, the first one in the text behind it.  A stop directive in this text counts as
long as no other marker starts before it: then the link is extracted under no options, and an
extraction is the same as without the link, but for the report that it was skipped.  Any other
marker before it, be it a comment, takes its place; then the link can be extracted after all, if
only with whole files.

Main definitions:

* `Citations.Marker.stopTexts` — the two ways to write a stop directive;
* `Citations.Marker.IsHidden` — whether another marker takes the place of a directive.

Main results:

* `Citations.Marker.first?_eq_some_iff` — a marker is the first one if none starts before it;
* `Citations.Eligibility.never_eligible_iff` — only a stop directive keeps a link from being
  extracted under all options;
* `Citations.Session.stop_honoured_iff` — **a stop directive counts unless it is hidden**;
* `Citations.Session.not_stop_honoured` — it can be hidden.
-/

import Citations.Proofs.Extraction.Order
import Citations.Proofs.Link.Trail

set_option relaxedAutoImplicit false
set_option autoImplicit false

namespace Citations

open Text
open Eligibility (defaultRules stopDirective)

/-! ### The first marker -/

namespace Marker

variable {cs before directive after : List Char} {m : Marker} {k : Nat}

/-- **A marker is the first one of a text** if it is read at a place before which none is. -/
theorem first?_eq_some_iff :
    first? cs = some m ↔ ∃ k, at? (cs.drop k) = some m ∧ ∀ j < k, at? (cs.drop j) = none := by
  induction cs with
  | nil =>
      constructor
      · intro h
        cases h
      · rintro ⟨k, h, -⟩
        rw [List.drop_nil] at h
        cases h
  | cons c cs ih =>
      rw [first?_cons, Option.or_eq_some_iff, ih]
      constructor
      · rintro (h | ⟨hnone, k, h, hbefore⟩)
        · exact ⟨0, h, fun j hj => absurd hj (Nat.not_lt_zero j)⟩
        · refine ⟨k + 1, h, fun j hj => ?_⟩
          cases j with
          | zero => exact hnone
          | succ j => exact hbefore j (Nat.lt_of_succ_lt_succ hj)
      · rintro ⟨k, h, hbefore⟩
        cases k with
        | zero => exact .inl h
        | succ k =>
            exact .inr ⟨hbefore 0 (Nat.succ_pos k), k, h, fun j hj =>
              hbefore (j + 1) (Nat.succ_lt_succ hj)⟩

/-- Where a marker is read, the first one is no later. -/
theorem exists_first_le (h : at? (cs.drop k) = some m) :
    ∃ j ≤ k, ∃ m', at? (cs.drop j) = some m' ∧ ∀ i < j, at? (cs.drop i) = none := by
  have hex : ∃ j, (at? (cs.drop j)).isSome := ⟨k, by rw [h]; rfl⟩
  obtain ⟨m', hm'⟩ := Option.isSome_iff_exists.1 (Nat.find_spec hex)
  exact ⟨Nat.find hex, Nat.find_min' hex (by rw [h]; rfl), m', hm', fun i hi =>
    Option.not_isSome_iff_eq_none.1 (Nat.find_min hex hi)⟩

/-! ### Stop directives -/

/-- The two ways to write a stop directive. -/
def stopTexts : List (List Char) :=
  ["%%stop-extract-link%%".toList, "<!-- stop-extract-link -->".toList]

/-- A stop directive is read wherever it is written. -/
theorem exists_at?_of_mem_stopTexts (h : directive ∈ stopTexts) (after : List Char) :
    ∃ m, at? (directive ++ after) = some m ∧ m.innerText = stopDirective := by
  simp only [stopTexts, List.mem_cons, List.not_mem_nil, or_false] at h
  rcases h with rfl | rfl
  · exact ⟨_, rfl, rfl⟩
  · exact ⟨_, rfl, rfl⟩

/-- **Whether another marker takes the place of a directive** that stands at a place of a text: it
starts before the directive, and it is the first one and not a stop directive itself. -/
def IsHidden (cs : List Char) (place : Nat) : Prop :=
  ∃ k < place, ∃ m, at? (cs.drop k) = some m ∧ m.innerText ≠ stopDirective ∧
    ∀ j < k, at? (cs.drop j) = none

/-- A stop directive is the first marker unless it is hidden. -/
theorem first?_stop_iff (h : directive ∈ stopTexts) :
    (∃ m, first? (before ++ directive ++ after) = some m ∧ m.innerText = stopDirective) ↔
      ¬ IsHidden (before ++ directive ++ after) before.length := by
  obtain ⟨own, hown, hstop⟩ := exists_at?_of_mem_stopTexts h after
  have hplace : (before ++ directive ++ after).drop before.length = directive ++ after := by
    rw [List.append_assoc, List.drop_left]
  rw [← hplace] at hown
  constructor
  · rintro ⟨m, hm, hinner⟩ ⟨k, -, m', hm', hinner', hbefore⟩
    have hsame := hm.symm.trans (first?_eq_some_iff.2 ⟨k, hm', hbefore⟩)
    cases hsame
    exact hinner' hinner
  · intro hhidden
    obtain ⟨k, hk, m, hm, hbefore⟩ := exists_first_le hown
    refine ⟨m, first?_eq_some_iff.2 ⟨k, hm, hbefore⟩, ?_⟩
    rcases Nat.lt_or_eq_of_le hk with hlt | rfl
    · by_contra hinner
      exact hhidden ⟨k, hlt, m, hm, hinner, hbefore⟩
    · cases hm.symm.trans hown
      exact hstop

end Marker

/-! ### Links that are never extracted -/

namespace Eligibility

variable {l : Link}

/-- **Only a stop directive keeps a link from being extracted under all options.** -/
theorem never_eligible_iff :
    (∀ fullFiles, (decide defaultRules fullFiles l).eligible = false) ↔
      ∃ m, l.marker = some m ∧ m.innerText = stopDirective := by
  constructor
  · intro h
    by_contra hnone
    have hstop : Rule.stopMarker.ruling? true l = none := by
      refine if_neg fun hany => hnone ?_
      obtain ⟨m, hm, hinner⟩ := (Option.any_eq_true _ _).1 hany
      exact ⟨m, hm, by simpa using hinner⟩
    -- with whole files, every rule that is left lets the link through
    have heligible : (decide defaultRules true l).eligible = true := by
      rw [defaultRules, decide_cons_of_none hstop]
      by_cases hforce : l.marker.any (·.innerText = forceDirective) = true
      · have hforced : Rule.forceMarker.ruling? true l = some .forced := if_pos hforce
        rw [decide_cons_of_some hforced]
        rfl
      · have hnot : Rule.forceMarker.ruling? true l = none := if_neg hforce
        rw [decide_cons_of_none hnot]
        by_cases hanchor : l.anchorKind.isSome = true
        · have hsection : Rule.sectionLink.ruling? true l = some .hasAnchor := if_pos hanchor
          rw [decide_cons_of_some hsection]
          rfl
        · have hwhole : Rule.sectionLink.ruling? true l = none := if_neg hanchor
          rw [decide_cons_of_none hwhole]
          rfl
    rw [h true] at heligible
    cases heligible
  · rintro ⟨m, hm, hinner⟩ fullFiles
    rw [decide_default_of_stop hm hinner]
    rfl

end Eligibility

/-! ### Extractions -/

namespace Session

variable {s : Session} {t : FileTree} {rules : List Eligibility.Rule} {fullFiles : Bool}
  {links before after : List Link} {l : Link}

/-- A link that the rules do not let through is skipped. -/
theorem status_finding_of_not_eligible
    (h : (Eligibility.decide rules fullFiles l).eligible = false) :
    (s.run t (l.finding rules fullFiles)).2.status = .skipped := by
  rcases s.run_finding t rules fullFiles l with ⟨hfollowed, -⟩ | ⟨-, hstatus⟩
  · rw [Link.isFollowed, h, Bool.and_false] at hfollowed
    cases hfollowed
  · exact hstatus

/-- **A link that the rules do not let through leaves nothing behind** but the report that it was
skipped. -/
theorem Sound.drops_of_not_eligible (hs : s.Sound) (hl : l.scope = .crossDocument)
    (h : (Eligibility.decide rules fullFiles l).eligible = false) :
    (∃ f : Finding, f.status = .skipped ∧
      (s.run t (extract rules fullFiles (before ++ l :: after))).2.reports[
        (before.filter fun l => l.scope = .crossDocument).length]? = some ⟨l, f⟩) ∧
    (s.run t (extract rules fullFiles (before ++ l :: after))).2.Drops
      (s.run t (extract rules fullFiles (before ++ after))).2
      (before.filter fun l => l.scope = .crossDocument).length := by
  have hstatus := status_finding_of_not_eligible (s := s) (t := t) h
  have hreports := hs.run_extract t rules fullFiles (before ++ l :: after)
  have hreports' := hs.run_extract t rules fullFiles (before ++ after)
  rw [List.filter_append, List.filter_cons_of_pos (by simpa using hl), List.map_append,
    List.map_cons] at hreports
  rw [List.filter_append, List.map_append] at hreports'
  have htext : (s.run t (l.finding rules fullFiles)).2.text? = none := by
    rw [← Option.not_isSome_iff_eq_none, Finding.isSome_text?_iff, hstatus]
    exact Finding.Status.noConfusion
  have hdrops := Extraction.drops_of_reports hreports hreports' htext
  rw [List.length_map] at hdrops
  refine ⟨⟨_, hstatus, ?_⟩, hdrops⟩
  rw [hreports, List.getElem?_append_right (by rw [List.length_map]), List.length_map, Nat.sub_self]
  rfl

/-- **A link that is never extracted**: under no options do the rules let it through, and whatever
checking says of it and whichever links it stands among, it is skipped, and nothing is stored that
would not be there without it. -/
structure IsNeverExtracted (l : Link) : Prop where
  ineligible : ∀ fullFiles, (Eligibility.decide defaultRules fullFiles l).eligible = false
  skipped : ∀ (s : Session) (t : FileTree) (fullFiles : Bool) (verdict : Option Verdict)
    (before after : List Link), s.Reachable → ∃ f : Finding, f.status = .skipped ∧
      (s.run t (extract defaultRules fullFiles
        (before ++ { l with verdict } :: after))).2.reports[
          (before.filter fun l => l.scope = .crossDocument).length]? = some ⟨{ l with verdict }, f⟩
  drops : ∀ (s : Session) (t : FileTree) (fullFiles : Bool) (verdict : Option Verdict)
    (before after : List Link), s.Reachable →
      (s.run t (extract defaultRules fullFiles (before ++ { l with verdict } :: after))).2.Drops
        (s.run t (extract defaultRules fullFiles (before ++ after))).2
        (before.filter fun l => l.scope = .crossDocument).length

/-- **A stop directive counts unless it is hidden.**  A link to another document with a stop
directive in the text behind it is never extracted, exactly if no other marker starts before the
directive and takes its place. -/
theorem stop_honoured_iff {origin : Origin} {line : String} {g : Link.Trail}
    {front directive rest : List Char} (hg : g ∈ Link.trails line.length (Link.ofLine origin line))
    (hcross : g.link.scope = .crossDocument) (hdirective : directive ∈ Marker.stopTexts)
    (htext : g.text line.toList = front ++ directive ++ rest) :
    IsNeverExtracted g.link ↔ ¬ Marker.IsHidden (g.text line.toList) front.length := by
  have hmarker : (∃ m, g.link.marker = some m ∧ m.innerText = stopDirective) ↔
      ¬ Marker.IsHidden (g.text line.toList) front.length := by
    rw [Link.marker_of_mem_trails hg, htext]
    exact Marker.first?_stop_iff hdirective
  rw [← hmarker, ← Eligibility.never_eligible_iff]
  constructor
  · intro h
    exact h.ineligible
  · intro h
    -- the rules do not look at the verdict
    have hany (fullFiles : Bool) (verdict : Option Verdict) :
        (Eligibility.decide defaultRules fullFiles { g.link with verdict }).eligible = false :=
      h fullFiles
    have hscope (verdict : Option Verdict) :
        ({ g.link with verdict } : Link).scope = .crossDocument := hcross
    refine ⟨h, fun s t fullFiles verdict before after hs => ?_,
      fun s t fullFiles verdict before after hs => ?_⟩
    · exact (hs.sound.drops_of_not_eligible (hscope verdict) (hany fullFiles verdict)).1
    · exact (hs.sound.drops_of_not_eligible (hscope verdict) (hany fullFiles verdict)).2

/-- The citation at the start of the lines below. -/
def guardedCitation : Citation := ⟨.markdown, some "a.md", some "One", some "x", 0, 13⟩

/-- A line on which a stop directive comes behind some prose and before another marker. -/
def guardedLine : String := "[x](a.md#One), see <!-- stop-extract-link --> %%force-extract%%"

/-- The link of this line, with the text behind it. -/
def guardedTrail : Link.Trail where
  link :=
    Link.ofCitation ⟨"/", "/notes.md", 1⟩ guardedLine.toList guardedCitation guardedLine.length
  stop := guardedLine.length

theorem guardedTrail_mem :
    guardedTrail ∈
      Link.trails guardedLine.length (Link.ofLine ⟨"/", "/notes.md", 1⟩ guardedLine) := by
  have hfound : Citation.collect guardedLine.toList Citation.readers
      (codeSpans guardedLine.toList) = [guardedCitation] := rfl
  have hcitations : citations guardedLine.toList = [guardedCitation] := by
    rw [citations, hfound, List.mergeSort_singleton]
  rw [Link.trails_of_citations_eq _ hcitations]
  exact List.mem_singleton_self _

/-- The directive counts: a link to a section on the shelf adds no text. -/
theorem stop_honoured_iff_guarded :
    guardedTrail.link.scope = .crossDocument ∧
      guardedTrail.text guardedLine.toList =
        ", see ".toList ++ "<!-- stop-extract-link -->".toList ++ " %%force-extract%%".toList ∧
      ¬ Marker.IsHidden (guardedTrail.text guardedLine.toList) 6 ∧
      IsNeverExtracted guardedTrail.link ∧
      (shelfSession.run shelf (extract defaultRules true
        [{ guardedTrail.link with verdict := some (.valid (some "/a.md")) }])).2.blocks = [] := by
  have hcross : guardedTrail.link.scope = .crossDocument := rfl
  have hdirective : "<!-- stop-extract-link -->".toList ∈ Marker.stopTexts :=
    List.mem_cons_of_mem _ (List.mem_cons_self ..)
  have htext : guardedTrail.text guardedLine.toList =
      ", see ".toList ++ "<!-- stop-extract-link -->".toList ++ " %%force-extract%%".toList := rfl
  have hhidden : ¬ Marker.IsHidden (guardedTrail.text guardedLine.toList) 6 := by
    rw [htext]
    exact (Marker.first?_stop_iff hdirective).1 ⟨_, rfl, rfl⟩
  have hnever : IsNeverExtracted guardedTrail.link :=
    (stop_honoured_iff guardedTrail_mem hcross hdirective htext).2 hhidden
  have hdrops := hnever.drops shelfSession shelf true (some (.valid (some "/a.md"))) [] []
    (.start ..)
  exact ⟨hcross, htext, hhidden, hnever, hdrops.blocks.symm⟩

/-- **A stop directive can be hidden**, here by a comment. -/
theorem not_stop_honoured :
    ¬ ∀ (origin : Origin) (line : String) (g : Link.Trail) (front directive rest : List Char),
      g ∈ Link.trails line.length (Link.ofLine origin line) → g.link.scope = .crossDocument →
        directive ∈ Marker.stopTexts → g.text line.toList = front ++ directive ++ rest →
          IsNeverExtracted g.link := by
  intro h
  have hfound : Citation.collect "[x](a.md#One) <!-- note --> %%stop-extract-link%%".toList
      Citation.readers (codeSpans "[x](a.md#One) <!-- note --> %%stop-extract-link%%".toList) =
        [guardedCitation] := rfl
  have hcitations : citations "[x](a.md#One) <!-- note --> %%stop-extract-link%%".toList =
      [guardedCitation] := by rw [citations, hfound, List.mergeSort_singleton]
  have htrails := Link.trails_of_citations_eq ⟨"/", "/notes.md", 1⟩ hcitations
  have hnever := h ⟨"/", "/notes.md", 1⟩ _ _ " <!-- note --> ".toList
    "%%stop-extract-link%%".toList [] (htrails ▸ List.mem_singleton_self _) rfl
    (List.mem_cons_self ..) rfl
  have heligible := hnever.ineligible false
  revert heligible
  decide +kernel

end Session

end Citations

/-
**What follows a link.**

Behind each link of a line there is the text up to the next link, or to the end of the line.  The
marker of a link is looked for there, and nowhere else: it is the first one that can be read at any
place of this text.  As links start one behind the other, the texts behind two links lie apart, also
where one link starts inside the other; then there is no text behind the first of them.

Main definitions:

* `Citations.Marker.at?` — the marker at the start of a text;
* `Citations.Link.Trail` — a link with the place at which the text behind it ends;
* `Citations.Link.trails` — the links of a line with these places.

Main results:

* `Citations.Marker.first?_eq` — the first marker of a text is read where one can be read first;
* `Citations.Marker.prefix_of_at?` — a marker is a part of the text;
* `Citations.Link.marker_of_mem_trails` — a link has the first marker of the text behind it;
* `Citations.Link.markers_apart` — **no marker belongs to two links**.
-/

import Citations.Proofs.Document.Position
import Mathlib.Data.List.Infix
import Mathlib.Data.Set.Lattice
import Mathlib.Order.CompletePartialOrder
import Mathlib.Order.Interval.Set.Basic

set_option relaxedAutoImplicit false
set_option autoImplicit false

namespace Citations

open Text

/-! ### Markers -/

namespace Marker

variable {spaced : Bool} {closing cs inner skipped : List Char} {m : Marker} {n : Nat}

theorem untilClosing_eq_some (h : untilClosing spaced closing cs = some inner) :
    ∃ rest, cs = inner ++ rest ∧ closesAt spaced closing rest = true := by
  induction cs generalizing inner with
  | nil => cases h
  | cons c cs ih =>
      rw [untilClosing] at h
      split at h
      · cases h
        exact ⟨c :: cs, rfl, ‹_›⟩
      · split at h
        · cases h
        · obtain ⟨inner, hinner, rfl⟩ := Option.map_eq_some_iff.1 h
          obtain ⟨rest, rfl, hcloses⟩ := ih hinner
          exact ⟨rest, rfl, hcloses⟩

theorem body_eq_some (h : body spaced closing cs = some inner) :
    ∃ rest, cs = inner ++ rest ∧ closesAt spaced closing rest = true := by
  cases cs with
  | nil => cases h
  | cons c cs =>
      rw [body] at h
      split at h
      · cases h
      · obtain ⟨inner, hinner, rfl⟩ := Option.map_eq_some_iff.1 h
        obtain ⟨rest, rfl, hcloses⟩ := untilClosing_eq_some hinner
        exact ⟨rest, rfl, hcloses⟩

/-- The body of a comment begins behind some of the white space. -/
theorem commentBody_eq_some (h : commentBody skipped cs = some (n, inner)) :
    body true ['-', '-', '>'] ((skipped.reverse ++ cs).drop n) = some inner := by
  induction skipped generalizing cs with
  | nil =>
      obtain ⟨inner, hinner, hpair⟩ := Option.map_eq_some_iff.1 h
      cases hpair
      exact hinner
  | cons b skipped ih =>
      rw [commentBody] at h
      split at h
      · rename_i hbody
        cases h
        rw [← hbody, List.drop_left' (by simp)]
      · have hrest := ih h
        rwa [List.reverse_cons, List.append_assoc]

theorem prefix_of_percent? (h : percent? cs = some m) : m.fullMatch.toList <+: cs := by
  unfold percent? at h
  split at h
  · obtain ⟨inner, hinner, rfl⟩ := Option.map_eq_some_iff.1 h
    obtain ⟨rest, rfl, hcloses⟩ := body_eq_some hinner
    obtain ⟨after, rfl⟩ := List.isPrefixOf_iff_prefix.1 hcloses
    exact ⟨after, by simp⟩
  · cases h

theorem prefix_of_comment? (h : comment? cs = some m) : m.fullMatch.toList <+: cs := by
  unfold comment? at h
  split at h
  · rename_i cs
    obtain ⟨⟨skipped, inner⟩, hinner, rfl⟩ := Option.map_eq_some_iff.1 h
    have hbody := commentBody_eq_some hinner
    rw [List.reverse_reverse, trimStart_append] at hbody
    obtain ⟨rest, hrest, hcloses⟩ := body_eq_some hbody
    obtain ⟨after, hafter⟩ := List.isPrefixOf_iff_prefix.1 hcloses
    -- behind the body there is white space, and then the closing delimiter
    have hstop : cs.drop (skipped + inner.length) = rest := by
      rw [← List.drop_drop, hrest, List.drop_left]
    have hclosing : cs.drop (skipped + inner.length + (rest.takeWhile isBlank).length) =
        "-->".toList ++ after := by
      have hblank := @List.drop_left _ (rest.takeWhile isBlank) (trimStart rest)
      rw [trimStart_append] at hblank
      rw [← List.drop_drop, hstop, hblank]
      exact hafter.symm
    dsimp only
    rw [hstop, String.toList_ofList]
    refine ⟨after, ?_⟩
    have hsplit := List.take_append_drop
      (skipped + inner.length + (rest.takeWhile isBlank).length) cs
    rw [hclosing] at hsplit
    rw [List.append_assoc, List.append_assoc, hsplit]
    rfl
  · cases h

/-- The marker at the start of a text. -/
def at? (cs : List Char) : Option Marker := (percent? cs).orElse fun _ => comment? cs

theorem prefix_of_at? (h : at? cs = some m) : m.fullMatch.toList <+: cs := by
  rw [at?, Option.orElse_eq_or, Option.or_eq_some_iff] at h
  rcases h with h | ⟨-, h⟩
  · exact prefix_of_percent? h
  · exact prefix_of_comment? h

theorem head?_findFrom_read (cs : List Char) (prev : Option Char) (pos : Nat) :
    (findFrom read prev pos 0 cs).head?.map Found.value = cs.tails.findSome? at? := by
  induction cs generalizing prev pos with
  | nil => rfl
  | cons c cs ih =>
      have hread : read prev (c :: cs) =
          (at? (c :: cs)).map fun m => (m, m.fullMatch.length) := rfl
      rw [findFrom, hread, List.tails_cons, List.findSome?_cons]
      cases at? (c :: cs) with
      | none => exact ih _ _
      | some m => rfl

/-- **The first marker of a text** is read at the first place where one can be read. -/
theorem first?_eq (cs : List Char) : first? cs = cs.tails.findSome? at? :=
  head?_findFrom_read cs none 0

theorem first?_cons (c : Char) (cs : List Char) :
    first? (c :: cs) = (at? (c :: cs)).or (first? cs) := by
  rw [first?_eq, first?_eq, List.tails_cons, List.findSome?_cons]
  cases at? (c :: cs) <;> rfl

/-- A marker is a part of the text that it is the first marker of. -/
theorem infix_of_first? (h : first? cs = some m) : m.fullMatch.toList <:+: cs := by
  induction cs with
  | nil => cases h
  | cons c cs ih =>
      rw [first?_cons, Option.or_eq_some_iff] at h
      rcases h with h | ⟨-, h⟩
      · exact (prefix_of_at? h).isInfix
      · exact (ih h).trans (List.suffix_cons c cs).isInfix

end Marker

/-- A part of what stands between two places, found again on the whole. -/
theorem Text.slice_of_slice_eq_append {α : Type} {xs u v w : List α} {start stop : Nat}
    (h : slice xs start stop = u ++ v ++ w) (hlt : start < stop) :
    start + u.length + v.length ≤ stop ∧
      slice xs (start + u.length) (start + u.length + v.length) = v := by
  have hlength : (slice xs start stop).length ≤ stop - start := List.length_take_le _ _
  have hdrop : xs.drop start = u ++ v ++ w ++ (xs.drop start).drop (stop - start) := by
    conv_lhs => rw [← List.take_append_drop (stop - start) (xs.drop start)]
    rw [← h, slice]
  rw [h, List.length_append, List.length_append] at hlength
  refine ⟨by omega, ?_⟩
  rw [slice, Nat.add_sub_cancel_left, ← List.drop_drop, hdrop, List.append_assoc, List.append_assoc,
    List.drop_left, List.take_left]

/-! ### The text behind a link -/

namespace Link

variable {origin : Origin} {chars : List Char} {l : Link} {cs : List Citation} {length : Nat}

/-- A link of a line, with the place at which the text behind it ends. -/
structure Trail where
  link : Link
  stop : Nat

variable {g : Trail}

/-- The text behind a link. -/
def Trail.text (g : Trail) (chars : List Char) : List Char := slice chars g.link.stop g.stop

/-- The places of the text behind a link. -/
def Trail.places (g : Trail) : Set Nat := Set.Ico g.link.stop g.stop

/-- Whether the marker of a link stands at a place of the text behind it. -/
def Trail.MarkedAt (g : Trail) (chars : List Char) (k : Nat) : Prop :=
  ∃ m, g.link.marker = some m ∧ g.link.stop ≤ k ∧ k + m.fullMatch.length ≤ g.stop ∧
    slice chars k (k + m.fullMatch.length) = m.fullMatch.toList

/-- **The links of a line, each with the text behind it**: up to the start of the next link, or to
the end of the line, which is `length` characters long. -/
def trails (length : Nat) : List Link → List Trail
  | [] => []
  | [l] => [⟨l, length⟩]
  | l :: next :: rest => ⟨l, next.column⟩ :: trails length (next :: rest)

theorem map_link_trails (length : Nat) (links : List Link) :
    (trails length links).map Trail.link = links := by
  fun_induction trails length links with
  | case1 => rfl
  | case2 l => rfl
  | case3 l next rest ih => rw [List.map_cons, ih]

theorem link_mem_of_mem_trails {links : List Link} (h : g ∈ trails length links) :
    g.link ∈ links := by
  rw [← map_link_trails length links]
  exact List.mem_map_of_mem h

/-- The text behind a link ends before all later links. -/
theorem trails_pairwise {links : List Link} (h : links.Pairwise fun a b => a.column < b.column) :
    (trails length links).Pairwise fun g g' => g.stop ≤ g'.link.column := by
  fun_induction trails length links with
  | case1 => exact .nil
  | case2 l => exact List.pairwise_singleton _ _
  | case3 l next rest ih =>
      obtain ⟨-, hrest⟩ := List.pairwise_cons.1 h
      refine .cons (fun g hg => ?_) (ih hrest)
      rcases List.mem_cons.1 (link_mem_of_mem_trails hg) with hlink | hlink
      · rw [hlink]
      · exact Nat.le_of_lt ((List.pairwise_cons.1 hrest).1 _ hlink)

theorem exists_ofCitations_cons (origin : Origin) (chars : List Char) (c : Citation)
    (cs : List Citation) :
    ∃ markerStop, ofCitations origin chars (c :: cs) =
      ofCitation origin chars c markerStop :: ofCitations origin chars cs := by
  cases cs with
  | nil => exact ⟨_, rfl⟩
  | cons next rest => exact ⟨_, rfl⟩

/-- The text behind a link is where its marker was looked for. -/
theorem exists_citation_of_mem_trails (h : g ∈ trails chars.length (ofCitations origin chars cs)) :
    ∃ c ∈ cs, g.link = ofCitation origin chars c g.stop := by
  induction cs with
  | nil => cases h
  | cons c cs ih =>
      cases cs with
      | nil =>
          cases List.mem_singleton.1 h
          exact ⟨c, List.mem_singleton_self c, rfl⟩
      | cons next rest =>
          obtain ⟨markerStop, hnext⟩ := exists_ofCitations_cons origin chars next rest
          rw [ofCitations, hnext] at h
          rcases List.mem_cons.1 h with rfl | h
          · exact ⟨c, List.mem_cons_self .., rfl⟩
          · obtain ⟨c', hc', hlink⟩ := ih (hnext ▸ h)
            exact ⟨c', List.mem_cons_of_mem _ hc', hlink⟩

variable {line : String}

/-- The only link of a line has the rest of the line behind it. -/
theorem trails_of_citations_eq {c : Citation} (origin : Origin) (h : citations line.toList = [c]) :
    trails line.length (ofLine origin line) =
      [⟨ofCitation origin line.toList c line.length, line.length⟩] := by
  rw [ofLine, h]
  rfl

/-- **A link has the first marker of the text behind it.** -/
theorem marker_of_mem_trails (h : g ∈ trails line.length (ofLine origin line)) :
    g.link.marker = Marker.first? (g.text line.toList) := by
  obtain ⟨c, hc, hlink⟩ := exists_citation_of_mem_trails h
  have hstop := stop_ofCitation origin (bounds_of_mem_citations hc) g.stop
  rw [Trail.text, hlink, hstop]
  rfl

/-- The marker of a link stands somewhere in the text behind it. -/
theorem exists_markedAt (h : g ∈ trails line.length (ofLine origin line))
    (hmarker : g.link.marker.isSome) : ∃ k, g.MarkedAt line.toList k := by
  obtain ⟨m, hm⟩ := Option.isSome_iff_exists.1 hmarker
  have hfirst := (marker_of_mem_trails h).symm.trans hm
  have hlt : g.link.stop < g.stop := by
    by_contra hle
    rw [Trail.text, slice, Nat.sub_eq_zero_of_le (Nat.le_of_not_lt hle)] at hfirst
    cases hfirst
  obtain ⟨u, w, hsplit⟩ := Marker.infix_of_first? hfirst
  obtain ⟨hle, hslice⟩ := slice_of_slice_eq_append hsplit.symm hlt
  exact ⟨_, m, hm, Nat.le_add_right _ _, hle, hslice⟩

/-- **No marker belongs to two links.**  The marker of each link stands in the text behind it, up to
the next link or to the end of the line; and the texts behind two links lie apart, so that what is
the marker of one is not that of the other. -/
theorem markers_apart (origin : Origin) (line : String) :
    (trails line.length (ofLine origin line)).map Trail.link = ofLine origin line ∧
    (∀ g ∈ trails line.length (ofLine origin line), g.link.marker.isSome →
      ∃ k, g.MarkedAt line.toList k) ∧
    (trails line.length (ofLine origin line)).Pairwise fun g g' => Disjoint g.places g'.places ∧
      ∀ k, g.MarkedAt line.toList k → ¬ g'.MarkedAt line.toList k := by
  refine ⟨map_link_trails _ _, fun g hg => exists_markedAt hg, ?_⟩
  refine (trails_pairwise (ofLine_pairwise_column origin line)).imp_of_mem
    fun {g g'} hg hg' hstop => ?_
  have hlt := (shown_of_mem_ofLine (link_mem_of_mem_trails hg')).1
  refine ⟨Set.disjoint_left.2 fun k hk hk' => ?_, fun k hk hk' => ?_⟩
  · have := hk.2
    have := hk'.1
    omega
  · obtain ⟨m, -, -, hle, -⟩ := hk
    obtain ⟨m', -, hge, -, -⟩ := hk'
    omega

end Link

end Citations

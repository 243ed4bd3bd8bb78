/-
**Which links of a line overlap.**

No citation starts inside one of a kind that was tried before.  That keeps most citations apart, for
their brackets leave no other way to overlap.  Two ways are left: a Markdown link can start in the
destination of another one, and a cite tag can end at the first bracket that a Markdown link or a
wiki link inside it closes.

Main definitions:

* `Citations.Link.stop` — the place behind a link;
* `Citations.Link.IsInDestination`, `Citations.Link.IsCutOff` — the two ways to overlap.

Main results:

* `Citations.Citation.collect_pairwise` — what holds of citations of the same kind and of different
  kinds holds of all citations of a line;
* `Citations.citations_pairwise` — the citations of a line are apart, but for the two ways;
* `Citations.Link.ofLine_pairwise` — **the links of a line are apart, but for the two ways**;
* `Citations.Link.not_ofLine_pairwise` — they are not always apart.
-/

import Citations.Link.Scan
import Citations.Proofs.Link.Brackets

set_option relaxedAutoImplicit false
set_option autoImplicit false

namespace Citations

open Text

namespace Citation

variable {chars : List Char} {a b : Citation} {avoid : List (Nat × Nat)}

/-! ### Two citations -/

/-- How a citation can precede another one. -/
inductive Precedes (a b : Citation) : Prop where
  /-- It ends before the other starts. -/
  | apart : a.start < a.stop → a.stop ≤ b.start → Precedes a b
  /-- The other starts in its destination. -/
  | destination : a.kind = .markdown → b.kind = .markdown → a.textEnd + 1 < b.start →
      b.start < a.stop → Precedes a b
  /-- It ends inside the other. -/
  | cutOff : a.kind = .cite → b.kind = .markdown ∨ b.kind = .wiki → a.start < b.start →
      b.start < a.stop → a.stop < b.stop → Precedes a b

theorem Precedes.start_lt (h : Precedes a b) : a.start < b.start := by
  cases h with
  | apart hlt hle => omega
  | destination _ _ hlt _ =>
      unfold textEnd at hlt
      omega
  | cutOff _ _ hlt _ _ => exact hlt

/-- One of two citations precedes the other. -/
def Ordered (a b : Citation) : Prop := Precedes a b ∨ Precedes b a

theorem Ordered.symm (h : Ordered a b) : Ordered b a := Or.symm h

/-- A citation by a caret starts in no other citation only if it ends before that. -/
theorem IsCaret.ordered (hb : b.IsCaret chars) (hopens : chars[a.start]? = some '[')
    (ha : a.start < a.stop) (hout : ¬ (a.start ≤ b.start ∧ b.start < a.stop)) : Ordered a b := by
  rcases Nat.lt_or_ge b.start a.start with hlt | hge
  · refine .inr (.apart hb.lt_stop ?_)
    by_contra hstop
    exact hb.plain a.start (by omega) (by omega) hopens
  · exact .inl (.apart ha (by omega))

/-- A cite tag ends before a link that it does not start in, or inside it. -/
theorem IsCite.ordered (hb : b.IsCite chars) {last : Nat} (hcloses : chars[last]? = some ']')
    (hlast : a.start < last) (hstop : last + 1 < a.stop)
    (hkind : a.kind = .markdown ∨ a.kind = .wiki)
    (hout : ¬ (a.start ≤ b.start ∧ b.start < a.stop)) : Ordered a b := by
  have hlt := hb.lt
  rcases Nat.lt_or_ge b.start a.start with hstart | hstart
  · by_cases hapart : b.stop ≤ a.start
    · exact .inr (.apart (by omega) hapart)
    · -- the tag ends at the first closing bracket, which is that of the link or one before it
      have hle : b.stop - 1 ≤ last := by
        by_contra h
        exact hb.plain last (by omega) (by omega) hcloses
      exact .inr (.cutOff hb.kind hkind hstart (by omega) (by omega))
  · exact .inl (.apart (by omega) (by omega))

/-- A wiki link that does not start in a Markdown link is apart from it. -/
theorem IsWiki.ordered (hb : b.IsWiki chars) (ha : a.IsMarkdown chars)
    (hout : ¬ (a.start ≤ b.start ∧ b.start < a.stop)) : Ordered a b := by
  have hinner := hb.inner.lt
  have htext := ha.text.lt
  have hstop := ha.lt_stop
  rcases Nat.lt_or_ge b.start a.start with hlt | hge
  · refine .inr (.apart (by omega) ?_)
    by_contra hover
    have hopens := ha.text.opens
    -- the first bracket of the Markdown link would be one of those of the wiki link
    rcases Nat.lt_trichotomy a.start (b.start + 1) with h | h | h
    · omega
    · exact ha.prev b.start h.symm hb.opens
    · rcases Nat.lt_or_ge (b.stop - 2) a.start with hlast | hlast
      · have hend : a.start = b.stop - 1 := by omega
        rw [hend, hb.closes] at hopens
        cases hopens
      · exact hb.inner.not_opens h hlast hopens
  · exact .inl (.apart (by omega) (by omega))

theorem IsMarkdown.ordered_cite (ha : a.IsMarkdown chars) (hb : b.IsCite chars)
    (hout : ¬ (a.start ≤ b.start ∧ b.start < a.stop)) : Ordered a b := by
  have hstop := ha.lt_stop
  exact hb.ordered ha.text.closes ha.text.lt (by omega) (.inl ha.kind) hout

theorem IsWiki.ordered_cite (ha : a.IsWiki chars) (hb : b.IsCite chars)
    (hout : ¬ (a.start ≤ b.start ∧ b.start < a.stop)) : Ordered a b := by
  have hlt := ha.inner.lt
  exact hb.ordered ha.inner.closes (by omega) (by omega) (.inr ha.kind) hout

theorem IsMarkdown.start_lt (h : a.IsMarkdown chars) : a.start < a.stop := by
  have hlt := h.text.lt
  have hstop := h.lt_stop
  omega

theorem IsWiki.start_lt (h : a.IsWiki chars) : a.start < a.stop := by
  have hlt := h.inner.lt
  omega

theorem IsCite.start_lt (h : a.IsCite chars) : a.start < a.stop := by
  have hlt := h.lt
  omega

/-! ### Citations of one kind -/

theorem ofKind_markdown_pairwise :
    (ofKind .markdown markdown avoid chars).Pairwise Ordered := by
  have htaken : (ofKind .markdown markdown avoid chars).Pairwise
      fun a b => a.textEnd + 2 ≤ b.start := by
    refine ofKind_pairwise fun front rest b n hread => ?_
    obtain ⟨text, -, -, -, -, htext, rfl, -⟩ := markdown_eq_some hread
    simp only [textEnd, htext, Option.getD_some, String.length_ofList]
    omega
  refine htaken.imp_of_mem fun {a b} ha hb hle => .inl ?_
  have ha := isMarkdown_of_mem_ofKind ha
  have htext := ha.text.lt
  have hstop := ha.lt_stop
  rcases Nat.lt_or_ge b.start a.stop with hlt | hge
  · exact .destination ha.kind (isMarkdown_of_mem_ofKind hb).kind (by omega) hlt
  · exact .apart (by omega) hge

/-- Where a reader takes up all of each citation, the citations of its kind are apart. -/
theorem ofKind_pairwise_ordered {kind : LinkKind} {read : BodyReader}
    (hread : ∀ prev rest b n, read prev rest = some (some b, n) → b.length = n ∧ 0 < n) :
    (ofKind kind read avoid chars).Pairwise Ordered := by
  have htaken : (ofKind kind read avoid chars).Pairwise fun a b => a.stop ≤ b.start := by
    refine ofKind_pairwise fun front rest b n hbody => ?_
    have := (hread _ _ _ _ hbody).1
    dsimp only
    omega
  refine htaken.imp_of_mem fun {a b} ha _ hle => .inl (.apart ?_ hle)
  obtain ⟨front, rest, n, body, -, hbody, rfl⟩ := exists_read_of_mem_ofKind ha
  have := hread _ _ _ _ hbody
  dsimp only
  omega

theorem ofKind_wiki_pairwise : (ofKind .wiki wiki avoid chars).Pairwise Ordered := by
  refine ofKind_pairwise_ordered fun prev rest b n h => ?_
  obtain ⟨inner, -, -, -, rfl, hlength, -⟩ := wiki_eq_some h
  exact ⟨hlength, by omega⟩

theorem ofKind_cite_pairwise : (ofKind .cite cite avoid chars).Pairwise Ordered := by
  refine ofKind_pairwise_ordered fun prev rest b n h => ?_
  obtain ⟨inner, -, -, -, rfl, hlength, -⟩ := cite_eq_some h
  exact ⟨hlength, by omega⟩

theorem ofKind_caret_pairwise : (ofKind .caret caret avoid chars).Pairwise Ordered := by
  refine ofKind_pairwise_ordered fun prev rest b n h => ?_
  obtain ⟨name, -, -, -, rfl, hlength, -⟩ := caret_eq_some h
  exact ⟨hlength, by omega⟩

/-! ### Citations of all kinds -/

theorem notMem_of_inSpans_append {more : List (Nat × Nat)} {pos : Nat}
    (h : inSpans (avoid ++ more) pos = false) {s : Nat × Nat} (hs : s ∈ avoid) :
    ¬ (s.1 ≤ pos ∧ pos < s.2) := by
  intro hpos
  have : inSpans (avoid ++ more) pos = true :=
    List.any_eq_true.2 ⟨s, List.mem_append_left _ hs, by simpa using hpos⟩
  rw [h] at this
  cases this

/-- The citations that were found by some reader, with the spans that it was to avoid. -/
theorem exists_of_mem_collect {readers : List (LinkKind × BodyReader)}
    (h : b ∈ collect chars readers avoid) :
    ∃ r ∈ readers, ∃ more, b ∈ ofKind r.1 r.2 (avoid ++ more) chars := by
  induction readers generalizing avoid with
  | nil => cases h
  | cons r readers ih =>
      rcases List.mem_append.1 h with h | h
      · exact ⟨r, List.mem_cons_self .., [], by rwa [List.append_nil]⟩
      · obtain ⟨r', hr', more, hb⟩ := ih h
        rw [List.append_assoc] at hb
        exact ⟨r', List.mem_cons_of_mem _ hr', _, hb⟩

/-- What holds of citations of the same kind, and of those of different kinds if none starts in one
that was found before, holds of all citations. -/
theorem collect_pairwise {R : Citation → Citation → Prop} {readers : List (LinkKind × BodyReader)}
    (hsame : ∀ r ∈ readers, ∀ avoid, (ofKind r.1 r.2 avoid chars).Pairwise R)
    (hcross : readers.Pairwise fun p q => ∀ avoid avoid' a b, a ∈ ofKind p.1 p.2 avoid chars →
      b ∈ ofKind q.1 q.2 avoid' chars → ¬ (a.start ≤ b.start ∧ b.start < a.stop) → R a b) :
    (collect chars readers avoid).Pairwise R := by
  induction readers generalizing avoid with
  | nil => exact .nil
  | cons r readers ih =>
      obtain ⟨hfirst, hrest⟩ := List.pairwise_cons.1 hcross
      refine List.pairwise_append.2 ⟨hsame r (List.mem_cons_self ..) avoid,
        ih (fun r' hr' => hsame r' (List.mem_cons_of_mem _ hr')) hrest, fun a ha b hb => ?_⟩
      obtain ⟨r', hr', more, hb⟩ := exists_of_mem_collect hb
      have hspan : a.span ∈ avoid ++ (ofKind r.1 r.2 avoid chars).map span :=
        List.mem_append_right _ (List.mem_map_of_mem ha)
      exact hfirst r' hr' avoid _ a b ha hb
        (notMem_of_inSpans_append (start_notMem_of_mem_ofKind hb) hspan)

theorem collect_readers_pairwise : (collect chars readers avoid).Pairwise Ordered := by
  refine collect_pairwise (fun r hr avoid => ?_) ?_
  · simp only [readers, List.mem_cons, List.not_mem_nil, or_false] at hr
    rcases hr with rfl | rfl | rfl | rfl
    · exact ofKind_markdown_pairwise
    · exact ofKind_wiki_pairwise
    · exact ofKind_cite_pairwise
    · exact ofKind_caret_pairwise
  · -- one case for each kind and the kinds that are tried after it
    refine .cons (fun q hq avoid avoid' a b ha hb hout => ?_)
      (.cons (fun q hq avoid avoid' a b ha hb hout => ?_)
        (.cons (fun q hq avoid avoid' a b ha hb hout => ?_) (.cons (by simp) .nil)))
    · have ha := isMarkdown_of_mem_ofKind ha
      simp only [List.mem_cons, List.not_mem_nil, or_false] at hq
      rcases hq with rfl | rfl | rfl
      · exact (isWiki_of_mem_ofKind hb).ordered ha hout
      · exact ha.ordered_cite (isCite_of_mem_ofKind hb) hout
      · exact (isCaret_of_mem_ofKind hb).ordered ha.text.opens ha.start_lt hout
    · have ha := isWiki_of_mem_ofKind ha
      simp only [List.mem_cons, List.not_mem_nil, or_false] at hq
      rcases hq with rfl | rfl
      · exact ha.ordered_cite (isCite_of_mem_ofKind hb) hout
      · exact (isCaret_of_mem_ofKind hb).ordered ha.opens ha.start_lt hout
    · have ha := isCite_of_mem_ofKind ha
      simp only [List.mem_cons, List.not_mem_nil, or_false] at hq
      subst hq
      exact (isCaret_of_mem_ofKind hb).ordered ha.opens ha.start_lt hout

theorem bounds_of_mem_collect_readers (h : a ∈ collect chars readers avoid) :
    a.start < a.stop ∧ a.stop ≤ chars.length := by
  obtain ⟨r, hr, more, ha⟩ := exists_of_mem_collect h
  simp only [readers, List.mem_cons, List.not_mem_nil, or_false] at hr
  rcases hr with rfl | rfl | rfl | rfl
  · have ha := isMarkdown_of_mem_ofKind ha
    exact ⟨ha.start_lt, ha.stop_le⟩
  · have ha := isWiki_of_mem_ofKind ha
    exact ⟨ha.start_lt, ha.stop_le⟩
  · have ha := isCite_of_mem_ofKind ha
    exact ⟨ha.start_lt, ha.stop_le⟩
  · have ha := isCaret_of_mem_ofKind ha
    exact ⟨ha.lt_stop, ha.stop_le⟩

end Citation

/-! ### The citations of a line -/

theorem bounds_of_mem_citations {chars : List Char} {c : Citation} (h : c ∈ citations chars) :
    c.start < c.stop ∧ c.stop ≤ chars.length :=
  Citation.bounds_of_mem_collect_readers ((List.mergeSort_perm _ _).mem_iff.1 h)

theorem sorted_citations (chars : List Char) :
    (citations chars).Pairwise fun a b => a.start ≤ b.start := by
  have hsorted : (citations chars).Pairwise fun a b => decide (a.start ≤ b.start) = true := by
    refine List.pairwise_mergeSort (fun a b c hab hbc => ?_) (fun a b => ?_) _
    · simp only [decide_eq_true_eq] at hab hbc ⊢
      omega
    · simp only [Bool.or_eq_true, decide_eq_true_eq]
      omega
  exact hsorted.imp fun h => by simpa using h

/-- The citations of a line come one after the other, but for the two ways to overlap. -/
theorem citations_pairwise (chars : List Char) : (citations chars).Pairwise Citation.Precedes := by
  have hordered : (citations chars).Pairwise Citation.Ordered :=
    ((List.mergeSort_perm _ _).pairwise_iff Citation.Ordered.symm).2
      Citation.collect_readers_pairwise
  refine (hordered.and (sorted_citations chars)).imp fun {a b} h => ?_
  rcases h.1 with hab | hba
  · exact hab
  · have := hba.start_lt
    omega

/-! ### The links of a line -/

namespace Link

variable {origin : Origin} {chars : List Char} {l : Link} {c : Citation}

/-- The place behind a link. -/
def stop (l : Link) : Nat := l.column + l.fullMatch.length

/-- Whether a link starts in the destination of another one, behind its text in brackets and the
opening parenthesis, but before its end. -/
def IsInDestination (b a : Link) : Prop :=
  a.kind = .markdown ∧ b.kind = .markdown ∧
    a.column + (a.text.getD "").length + 2 < b.column ∧ b.column < a.stop

/-- Whether a cite tag is cut off by a link that starts inside it and goes on behind it. -/
def IsCutOff (a b : Link) : Prop :=
  a.kind = .cite ∧ (b.kind = .markdown ∨ b.kind = .wiki) ∧ b.column < a.stop ∧ a.stop < b.stop

theorem stop_ofCitation (origin : Origin) (h : c.start < c.stop ∧ c.stop ≤ chars.length)
    (markerStop : Nat) : (ofCitation origin chars c markerStop).stop = c.stop := by
  have hlength : (slice chars c.start c.stop).length = c.stop - c.start := length_slice chars h.2
  simp only [stop, ofCitation, String.length_ofList, hlength]
  omega

theorem exists_of_mem_ofCitations {cs : List Citation} (h : l ∈ ofCitations origin chars cs) :
    ∃ c ∈ cs, ∃ markerStop, l = ofCitation origin chars c markerStop := by
  fun_induction ofCitations origin chars cs with
  | case1 => cases h
  | case2 c =>
      rw [List.mem_singleton] at h
      exact ⟨c, List.mem_singleton_self c, _, h⟩
  | case3 c next rest ih =>
      rcases List.mem_cons.1 h with rfl | h
      · exact ⟨c, List.mem_cons_self .., _, rfl⟩
      · obtain ⟨c', hc', markerStop, rfl⟩ := ih h
        exact ⟨c', List.mem_cons_of_mem _ hc', markerStop, rfl⟩

/-- What holds of citations holds of the links that they make, wherever their markers end. -/
theorem ofCitations_pairwise {R : Citation → Citation → Prop} {S : Link → Link → Prop}
    {cs : List Citation} (hcs : cs.Pairwise R)
    (hS : ∀ a ∈ cs, ∀ b ∈ cs, R a b → ∀ m n,
      S (ofCitation origin chars a m) (ofCitation origin chars b n)) :
    (ofCitations origin chars cs).Pairwise S := by
  fun_induction ofCitations origin chars cs with
  | case1 => exact .nil
  | case2 c => exact List.pairwise_singleton _ _
  | case3 c next rest ih =>
      obtain ⟨hfirst, hrest⟩ := List.pairwise_cons.1 hcs
      refine .cons (fun l hl => ?_) (ih hrest fun a ha b hb =>
        hS a (List.mem_cons_of_mem _ ha) b (List.mem_cons_of_mem _ hb))
      obtain ⟨c', hc', m, rfl⟩ := exists_of_mem_ofCitations hl
      exact hS c (List.mem_cons_self ..) c' (List.mem_cons_of_mem _ hc') (hfirst c' hc') _ m

/-- **The links of a line are apart**, each before the next, except that a Markdown link can start
in the destination of another one and that a cite tag can be cut off by a Markdown link or a wiki
link. -/
theorem ofLine_pairwise (origin : Origin) (line : String) :
    (ofLine origin line).Pairwise fun a b =>
      a.column < b.column ∧ (a.stop ≤ b.column ∨ b.IsInDestination a ∨ a.IsCutOff b) := by
  refine ofCitations_pairwise (citations_pairwise line.toList) fun a ha b hb hab m n => ?_
  have hstart := hab.start_lt
  have hastop := stop_ofCitation origin (bounds_of_mem_citations ha) m
  have hbstop := stop_ofCitation origin (bounds_of_mem_citations hb) n
  refine ⟨hstart, ?_⟩
  rw [IsInDestination, IsCutOff, hastop, hbstop]
  cases hab with
  | apart _ hle => exact .inl hle
  | destination ha hb hlt hstop => exact .inr (.inl ⟨ha, hb, hlt, hstop⟩)
  | cutOff ha hb _ hstop hlt => exact .inr (.inr ⟨ha, hb, hstop, hlt⟩)

/-- **The links of a line are not always apart**: here a cite tag is cut off by a Markdown link. -/
theorem not_ofLine_pairwise :
    ¬ ∀ (origin : Origin) (line : String), (ofLine origin line).Pairwise fun a b =>
      a.stop ≤ b.column ∨ b.stop ≤ a.column := by
  intro h
  have hcitations : citations "[cite: see [x](a.md)".toList =
      [⟨.cite, some "see [x", none, some "cite: see [x", 0, 14⟩,
        ⟨.markdown, some "a.md", none, some "x", 11, 20⟩] := by
    have hfound : Citation.collect "[cite: see [x](a.md)".toList Citation.readers
        (codeSpans "[cite: see [x](a.md)".toList) =
          [⟨.markdown, some "a.md", none, some "x", 11, 20⟩,
            ⟨.cite, some "see [x", none, some "cite: see [x", 0, 14⟩] := rfl
    rw [citations, hfound]
    simp [List.mergeSort]
  have hline := h ⟨"/docs", "/docs/source.md", 1⟩ "[cite: see [x](a.md)"
  rw [ofLine, hcitations, ofCitations] at hline
  have hapart := (List.pairwise_cons.1 hline).1 _ (List.mem_cons_self ..)
  revert hapart
  decide +kernel

end Link

end Citations

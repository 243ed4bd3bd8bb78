/-
**Writing a citation and reading it back.**

A Markdown link and a wiki link are written down from a path, an anchor and a text.  The line may go
on with anything, and before the citation anything may stand that opens neither a citation nor a code
span.  Then the first citation of the line is the one that was written, as long as its parts hold
nothing that would end them early.

Three things have to fit together for that.  The search for the closing parenthesis passes over
nested ones; the destination is neither trimmed nor taken for one with a title; and the readers that
are tried earlier, and the code spans, leave the place to the citation.

Main definitions:

* `Citations.Destination.Nested` — texts in which parentheses are properly nested;
* `Citations.Destination.IsPlain`, `Citations.Citation.IsWikiPlain` — parts that can be read back;
* `Citations.Citation.Written` — the written forms of a citation;
* `Citations.Citation.Precursor` — what may stand before a citation.

Main results:

* `Citations.closingParen_append` — the closing parenthesis is behind the nested ones;
* `Citations.Destination.split_join` — a plain path and anchor are read off their destination;
* `Citations.Citation.markdown_write`, `Citations.Citation.wiki_write` — what the readers read;
* `Citations.head?_citations_of_written` — the first citation is the one that is written;
* `Citations.Link.head?_ofLine_of_written` — **writing a citation and reading it back gives the same
  citation**.
-/

import Citations.Proofs.Link.Overlap
import Citations.Proofs.Text.Scan
import Mathlib.Data.List.Basic

set_option relaxedAutoImplicit false
set_option autoImplicit false

namespace Citations

open Text

/-! ### Nested parentheses -/

namespace Destination

/-- Texts in which parentheses are properly nested. -/
inductive Nested : List Char → Prop
  | nil : Nested []
  | char {c : Char} {cs : List Char} : c ≠ '(' → c ≠ ')' → Nested cs → Nested (c :: cs)
  | parens {cs ds : List Char} : Nested cs → Nested ds → Nested ('(' :: (cs ++ ')' :: ds))

theorem closingFrom_cons {c : Char} (hc : c ≠ '\\') (depth : Int) (pos : Nat) (cs : List Char) :
    closingFrom depth pos (c :: cs) =
      if c = '(' then closingFrom (depth + 1) (pos + 1) cs
      else if c = ')' then
        if depth - 1 = 0 then some pos else closingFrom (depth - 1) (pos + 1) cs
      else closingFrom depth (pos + 1) cs := by
  rw [closingFrom]
  · rintro rfl -
    exact hc rfl
  · rintro _ _ rfl -
    exact hc rfl

/-- The search for a closing parenthesis passes over a text in which parentheses are nested. -/
theorem closingFrom_append {cs : List Char} (h : Nested cs) (hescape : '\\' ∉ cs) {depth : Int}
    (hdepth : 0 < depth) (pos : Nat) (rest : List Char) :
    closingFrom depth pos (cs ++ rest) = closingFrom depth (pos + cs.length) rest := by
  induction h generalizing depth pos rest with
  | nil => rfl
  | @char c cs hopen hclose _ ih =>
      rw [List.mem_cons, not_or] at hescape
      rw [List.cons_append, closingFrom_cons (Ne.symm hescape.1), if_neg hopen, if_neg hclose,
        ih hescape.2 hdepth, List.length_cons, Nat.add_assoc, Nat.add_comm 1]
  | @parens cs ds _ _ ih₁ ih₂ =>
      simp only [List.mem_cons, List.mem_append, not_or] at hescape
      have hnext : depth + 1 - 1 ≠ 0 := by omega
      calc closingFrom depth pos ('(' :: (cs ++ ')' :: ds) ++ rest)
          = closingFrom (depth + 1) (pos + 1) (cs ++ (')' :: (ds ++ rest))) := by
            rw [List.cons_append, closingFrom_cons (by decide), if_pos rfl, List.append_assoc,
              List.cons_append]
        _ = closingFrom (depth + 1) (pos + 1 + cs.length) (')' :: (ds ++ rest)) :=
            ih₁ hescape.2.1 (by omega) ..
        _ = closingFrom depth (pos + 1 + cs.length + 1) (ds ++ rest) := by
            rw [closingFrom_cons (by decide), if_neg (by decide), if_pos rfl, if_neg hnext,
              Int.add_sub_cancel]
        _ = closingFrom depth (pos + ('(' :: (cs ++ ')' :: ds)).length) rest := by
            rw [ih₂ hescape.2.2.2 hdepth]
            congr 1
            simp only [List.length_cons, List.length_append]
            omega

end Destination

theorem closingParen_append {cs : List Char} (h : Destination.Nested cs) (hescape : '\\' ∉ cs)
    (rest : List Char) : closingParen ('(' :: (cs ++ ')' :: rest)) 0 = some (cs.length + 1) := by
  open Destination in
  calc closingParen ('(' :: (cs ++ ')' :: rest)) 0
      = closingFrom (0 + 1) (0 + 1) (cs ++ ')' :: rest) := rfl
    _ = closingFrom (0 + 1) (0 + 1 + cs.length) (')' :: rest) :=
        closingFrom_append h hescape (by decide) ..
    _ = some (0 + 1 + cs.length) := by
        rw [closingFrom_cons (by decide), if_neg (by decide), if_pos rfl, if_pos (by decide)]
    _ = some (cs.length + 1) := by rw [Nat.zero_add, Nat.add_comm]

/-! ### Plain destinations -/

namespace Destination

/-- What a path and an anchor make of a destination. -/
def join (path anchor : List Char) : List Char := path ++ '#' :: anchor

/-- A quote character. -/
def isQuote (c : Char) : Bool := c == '"' || c == '\''

/-- A path and an anchor that can be read off the destination that they make: nothing in it closes
or escapes a parenthesis, and nothing at its ends is white space, a bracket or a title. -/
structure IsPlain (path anchor : List Char) : Prop where
  path_ne_nil : path ≠ []
  noHash : '#' ∉ path
  noAddress : isExternal path = false
  noBracket : ∀ c ∈ join path anchor, Citation.isBracket c = false
  noEscape : '\\' ∉ join path anchor
  nested : Nested (join path anchor)
  trimmed : trim (join path anchor) = join path anchor
  noAngle : (join path anchor).head? ≠ some '<'
  noQuote : ∀ c ∈ (join path anchor).getLast?, isQuote c = false

theorem getLast?_of_trimStart {cs : List Char} {q : Char} (h : (trimStart cs).getLast? = some q) :
    cs.getLast? = some q := by
  rw [← trimStart_append cs, List.getLast?_append, h, Option.some_or]

theorem getLast?_of_isTitle {cs : List Char} (h : isTitle cs = true) :
    ∃ q ∈ cs.getLast?, isQuote q = true := by
  cases cs with
  | nil => cases h
  | cons q cs =>
      simp only [isTitle, Bool.and_eq_true, beq_iff_eq] at h
      refine ⟨q, ?_, h.1.1⟩
      rw [Option.mem_def, List.getLast?_cons, h.1.2, Option.getD_some]

/-- A title ends in a quote character. -/
theorem beforeTitle_eq_none {cs : List Char} (h : ∀ c ∈ cs.getLast?, isQuote c = false) :
    beforeTitle cs = none := by
  induction cs with
  | nil => rfl
  | cons c cs ih =>
      have hrest : ∀ x ∈ cs.getLast?, isQuote x = false :=
        fun x hx => h x (List.mem_getLast?_cons hx)
      have htitle : ¬ isTitle (trimStart cs) = true := by
        intro ht
        obtain ⟨q, hq, hquote⟩ := getLast?_of_isTitle ht
        rw [hrest q (getLast?_of_trimStart hq)] at hquote
        cases hquote
      simp [beforeTitle, htitle, ih hrest]

theorem cutAtHash_join {path : List Char} (h : '#' ∉ path) (anchor : List Char) :
    cutAtHash (join path anchor) = (path, some anchor) := by
  have hpath : ∀ c ∈ path, decide (c ≠ '#') = true := by
    intro c hc
    exact decide_eq_true fun heq => h (heq ▸ hc)
  have hdrop : (join path anchor).dropWhile (· ≠ '#') = '#' :: anchor := by
    rw [join, List.dropWhile_append_of_pos hpath]
    rfl
  have htake : (join path anchor).takeWhile (· ≠ '#') = path := by
    rw [join, List.takeWhile_append_of_pos hpath]
    exact List.append_nil path
  rw [cutAtHash, hdrop, htake]

/-- **A plain path and anchor are read off their destination.** -/
theorem split_join {path anchor : List Char} (h : IsPlain path anchor) :
    split (join path anchor) = (some path, some anchor) := by
  have hbare : bare (join path anchor) = join path anchor := by
    simp only [bare, h.trimmed]
    rw [if_neg fun hends => h.noAngle hends.1, beforeTitle_eq_none h.noQuote, Option.getD_none]
  rw [split, hbare]
  split
  · rename_i rest hhead
    -- the first character is one of the path
    obtain ⟨c, path', rfl⟩ := List.exists_cons_of_ne_nil h.path_ne_nil
    cases hhead
    exact absurd (List.mem_cons_self ..) h.noHash
  · rw [cutAtHash_join h.noHash]

end Destination

/-! ### Written citations -/

namespace Citation

/-- A Markdown link in writing. -/
def writeMarkdown (text path anchor : List Char) : List Char :=
  '[' :: (text ++ ']' :: '(' :: (Destination.join path anchor ++ [')']))

/-- A wiki link in writing. -/
def writeWiki (path anchor text : List Char) : List Char :=
  '[' :: '[' :: (path ++ '#' :: (anchor ++ '|' :: (text ++ [']', ']'])))

variable {ends : Char → Bool} {part : List Char} {stop : Char}

/-- A part of a citation goes up to the first character that ends it. -/
theorem takeWhile_append_stop (hpart : ∀ c ∈ part, ends c = false) (hstop : ends stop = true)
    (rest : List Char) : (part ++ stop :: rest).takeWhile (!ends ·) = part := by
  have hinside : ∀ c ∈ part, (!ends c) = true := fun c hc => by rw [hpart c hc, Bool.not_false]
  rw [List.takeWhile_append_of_pos hinside, List.takeWhile_cons_of_neg (by simp [hstop]),
    List.append_nil]

theorem dropWhile_append_stop (hpart : ∀ c ∈ part, ends c = false) (hstop : ends stop = true)
    (rest : List Char) : (part ++ stop :: rest).dropWhile (!ends ·) = stop :: rest := by
  have hinside : ∀ c ∈ part, (!ends c) = true := fun c hc => by rw [hpart c hc, Bool.not_false]
  rw [List.dropWhile_append_of_pos hinside, List.dropWhile_cons_of_neg (by simp [hstop])]

theorem markedPart_append {mark : Char} (hne : part ≠ []) (hpart : ∀ c ∈ part, ends c = false)
    (hstop : ends stop = true) (rest : List Char) :
    markedPart mark ends (mark :: (part ++ stop :: rest)) = some (some part, stop :: rest) := by
  have hempty : ¬ part.isEmpty = true := by simpa using hne
  simp only [markedPart, takeWhile_append_stop hpart hstop, dropWhile_append_stop hpart hstop,
    if_neg hempty, if_true]

/-! ### Reading what is written -/

theorem markdownBody_join {path anchor : List Char} (h : Destination.IsPlain path anchor)
    (text after : List Char) :
    markdownBody text ('(' :: (Destination.join path anchor ++ ')' :: after)) =
      some ⟨some (String.ofList path), some (String.ofList anchor), some (String.ofList text),
        (writeMarkdown text path anchor).length⟩ := by
  have hslice : slice ('(' :: (Destination.join path anchor ++ ')' :: after)) 1
      ((Destination.join path anchor).length + 1) = Destination.join path anchor := by
    simp [slice]
  have hinside : ¬ ((some path).any fun p => p.isEmpty || Destination.isExternal p) = true := by
    simp [h.path_ne_nil, h.noAddress]
  have hlength : text.length + 2 + ((Destination.join path anchor).length + 1) + 1 =
      (writeMarkdown text path anchor).length := by
    simp only [writeMarkdown, List.length_cons, List.length_append, List.length_nil]
    omega
  simp only [markdownBody, closingParen_append h.nested h.noEscape, hslice,
    Destination.split_join h]
  rw [if_neg hinside, hlength]
  rfl

theorem markdown_write {prev : Option Char} {text path anchor : List Char}
    (hprev : prev ≠ some '!' ∧ prev ≠ some '[') (htext : ∀ c ∈ text, isBracket c = false)
    (h : Destination.IsPlain path anchor) (after : List Char) :
    markdown prev (writeMarkdown text path anchor ++ after) =
      some (some ⟨some (String.ofList path), some (String.ofList anchor), some (String.ofList text),
        (writeMarkdown text path anchor).length⟩, text.length + 3) := by
  have hchars : writeMarkdown text path anchor ++ after =
      '[' :: (text ++ ']' :: '(' :: (Destination.join path anchor ++ ')' :: after)) := by
    simp [writeMarkdown]
  have hstop : isBracket ']' = true := rfl
  simp only [hchars, markdown, if_neg (not_or.2 hprev), takeWhile_append_stop htext hstop,
    dropWhile_append_stop htext hstop, markdownBody_join h]

theorem wikiPath_append {path : List Char} (hmd : ".md".toList <:+ path)
    (hpath : ∀ c ∈ path, isWikiDelimiter c = false) (rest : List Char) :
    wikiPath (path ++ '#' :: rest) = some (some path, '#' :: rest) := by
  have hstop : isWikiDelimiter '#' = true := rfl
  have hempty : ¬ path.isEmpty = true := by
    rintro hnil
    rw [List.isEmpty_iff.1 hnil] at hmd
    exact absurd (List.suffix_nil.1 hmd) (by decide)
  simp only [wikiPath, takeWhile_append_stop hpath hstop, dropWhile_append_stop hpath hstop,
    if_neg hempty, if_pos (List.isSuffixOf_iff_suffix.2 hmd)]

/-- A path, an anchor and a text that can be read off the wiki link that they make: the path is that
of a Markdown file, and nothing in them ends them early. -/
structure IsWikiPlain (path anchor text : List Char) : Prop where
  isMarkdown : ".md".toList <:+ path
  anchor_ne_nil : anchor ≠ []
  text_ne_nil : text ≠ []
  path_plain : ∀ c ∈ path, isBracket c = false ∧ c ≠ '|' ∧ c ≠ '#'
  anchor_plain : ∀ c ∈ anchor, isBracket c = false ∧ c ≠ '|'
  text_plain : ∀ c ∈ text, isBracket c = false

theorem wiki_write {path anchor text : List Char} (h : IsWikiPlain path anchor text)
    (prev : Option Char) (after : List Char) :
    wiki prev (writeWiki path anchor text ++ after) =
      some (some ⟨some (String.ofList path), some (String.ofList anchor), some (String.ofList text),
        (writeWiki path anchor text).length⟩, (writeWiki path anchor text).length) := by
  have hchars : writeWiki path anchor text ++ after = '[' :: '[' :: (path ++ '#' ::
      (anchor ++ '|' :: (text ++ ']' :: (']' :: after)))) := by
    simp [writeWiki]
  have hdelimiter : ∀ c ∈ path, isWikiDelimiter c = false := by
    intro c hc
    simp [isWikiDelimiter, h.path_plain c hc]
  have hbar : ∀ c ∈ anchor, (isBracket c || c == '|') = false := by
    intro c hc
    simp [h.anchor_plain c hc]
  have hstop : (isBracket '|' || '|' == '|') = true := rfl
  have hclosing : isBracket ']' = true := rfl
  have hlength : (writeWiki path anchor text ++ after).length - after.length =
      (writeWiki path anchor text).length := by
    rw [List.length_append, Nat.add_sub_cancel]
  rw [hchars] at hlength ⊢
  simp only [wiki, wikiPath_append h.isMarkdown hdelimiter, Option.bind_eq_bind, Option.bind_some,
    markedPart_append h.anchor_ne_nil hbar hstop,
    markedPart_append h.text_ne_nil h.text_plain hclosing, hlength]
  rfl

/-! ### The first citation of a line -/

/-- Whether nothing in the text before a citation can be taken for a part of another citation or of
a code span, or changes how the first bracket behind it is read. -/
structure Precursor (before : List Char) : Prop where
  noBracket : '[' ∉ before
  noCaret : '^' ∉ before
  noTick : '`' ∉ before
  noBang : before.getLast? ≠ some '!'

variable {before chars : List Char} {c : Citation} {avoid : List (Nat × Nat)}

theorem inSpans_eq_false {spans : List (Nat × Nat)} {pos : Nat} (h : ∀ s ∈ spans, pos < s.1) :
    inSpans spans pos = false := by
  rw [inSpans, List.any_eq_false]
  intro s hs
  have := h s hs
  simp only [Bool.and_eq_true, decide_eq_true_eq, not_and]
  omega

/-- A citation starts with a bracket or a caret. -/
theorem opens_of_mem_collect (h : c ∈ collect chars readers avoid) :
    ∃ x, chars[c.start]? = some x ∧ (x = '[' ∨ x = '^') := by
  obtain ⟨r, hr, more, hc⟩ := exists_of_mem_collect h
  simp only [readers, List.mem_cons, List.not_mem_nil, or_false] at hr
  rcases hr with rfl | rfl | rfl | rfl
  · exact ⟨_, (isMarkdown_of_mem_ofKind hc).text.opens, .inl rfl⟩
  · exact ⟨_, (isWiki_of_mem_ofKind hc).opens, .inl rfl⟩
  · exact ⟨_, (isCite_of_mem_ofKind hc).opens, .inl rfl⟩
  · obtain ⟨front, rest, n, b, rfl, hread, rfl⟩ := exists_read_of_mem_ofKind hc
    obtain ⟨name, after, rfl, -⟩ := caret_eq_some hread
    exact ⟨'^', by simp, .inr rfl⟩

namespace Precursor

variable (h : Precursor before)

include h

/-- No citation starts before the first place where one can. -/
theorem length_le_start {rest : List Char} (hc : c ∈ collect (before ++ rest) readers avoid) :
    before.length ≤ c.start := by
  obtain ⟨x, hx, hopen⟩ := opens_of_mem_collect hc
  by_contra hlt
  rw [List.getElem?_append_left (by omega)] at hx
  have hmem := List.mem_of_getElem? hx
  rcases hopen with rfl | rfl
  · exact h.noBracket hmem
  · exact h.noCaret hmem

theorem declines_markdown : ∀ c ∈ before, Declines markdown c := by
  intro c hc prev rest
  have hne : c ≠ '[' := fun heq => h.noBracket (heq ▸ hc)
  simp [markdown, hne]

theorem declines_wiki : ∀ c ∈ before, Declines wiki c := by
  intro c hc prev rest
  have hne : c ≠ '[' := fun heq => h.noBracket (heq ▸ hc)
  simp [wiki, hne]

/-- No code span starts before a bracket or at it. -/
theorem lt_codeSpans (rest : List Char) :
    ∀ s ∈ codeSpans (before ++ '[' :: rest), before.length < s.1 := by
  have hdeclines : ∀ c ∈ before ++ ['['], Declines CodeSpan.read c := by
    intro c hc prev rest
    have hne : c ≠ '`' := by
      rintro rfl
      rcases List.mem_append.1 hc with hc | hc
      · exact h.noTick hc
      · exact absurd hc (by decide)
    simp [CodeSpan.read, hne]
  intro s hs
  obtain ⟨m, hm, hs⟩ := List.mem_filterMap.1 hs
  split at hs
  · cases hs
    rw [← List.singleton_append, ← List.append_assoc] at hm
    have := length_le_start_of_mem_findAll hdeclines hm
    rw [List.length_append, List.length_singleton] at this
    exact this
  · cases hs

end Precursor

/-- A citation that the reader of its kind reads behind the text before it. -/
theorem mem_ofKind_of_read {kind : LinkKind} {read : BodyReader} {x : Char} {rest : List Char}
    {b : Body} {n : Nat} (hbefore : ∀ c ∈ before, Declines read c)
    (havoid : inSpans avoid before.length = false)
    (hread : read before.getLast? (x :: rest) = some (some b, n)) :
    ⟨kind, b.path, b.anchor, b.text, before.length, before.length + b.length⟩ ∈
      ofKind kind read avoid (before ++ x :: rest) := by
  refine List.mem_filterMap.2 ⟨_, mem_findAll_of_read hbefore hread, ?_⟩
  simp [havoid]

/-- The written forms of a citation with a path, an anchor and a text. -/
inductive Written (path anchor text : List Char) : LinkKind → List Char → Prop
  | markdown : (∀ c ∈ text, isBracket c = false) → Destination.IsPlain path anchor →
      Written path anchor text .markdown (writeMarkdown text path anchor)
  | wiki : IsWikiPlain path anchor text →
      Written path anchor text .wiki (writeWiki path anchor text)

variable {path anchor text written : List Char} {kind : LinkKind}

/-- The citation that is written behind some text. -/
def ofWriting (kind : LinkKind) (path anchor text before written : List Char) : Citation :=
  ⟨kind, some (String.ofList path), some (String.ofList anchor), some (String.ofList text),
    before.length, before.length + written.length⟩

/-- A Markdown link does not start at the first bracket of a wiki link. -/
theorem lt_start_of_markdown {rest : List Char} (hbefore : Precursor before)
    (hc : c ∈ ofKind .markdown markdown avoid (before ++ '[' :: '[' :: rest)) :
    before.length < c.start := by
  have hle : before.length ≤ c.start := by
    obtain ⟨m, hm, hm'⟩ := List.mem_filterMap.1 hc
    have := length_le_start_of_mem_findAll hbefore.declines_markdown hm
    split at hm'
    · cases hm'
    · obtain ⟨b, -, rfl⟩ := Option.map_eq_some_iff.1 hm'
      exact this
  refine Nat.lt_of_le_of_ne hle fun heq => ?_
  have hshape := (isMarkdown_of_mem_ofKind hc).text
  refine hshape.not_opens (Nat.lt_succ_self _) hshape.lt ?_
  rw [← heq]
  simp

/-- What is written is among the citations of its line. -/
theorem mem_collect_of_written (hbefore : Precursor before)
    (h : Written path anchor text kind written) (after : List Char) :
    ofWriting kind path anchor text before written ∈ collect (before ++ (written ++ after)) readers
      (codeSpans (before ++ (written ++ after))) := by
  cases h with
  | markdown htext hplain =>
      have hprev : before.getLast? ≠ some '!' ∧ before.getLast? ≠ some '[' :=
        ⟨hbefore.noBang, fun hlast => hbefore.noBracket (List.mem_of_getLast? hlast)⟩
      have hread := markdown_write hprev htext hplain after
      exact List.mem_append_left _ (mem_ofKind_of_read hbefore.declines_markdown
        (inSpans_eq_false (hbefore.lt_codeSpans _)) hread)
  | wiki hplain =>
      have hread := wiki_write hplain before.getLast? after
      refine List.mem_append_right _ (List.mem_append_left _ (mem_ofKind_of_read
        hbefore.declines_wiki (inSpans_eq_false fun s hs => ?_) hread))
      rcases List.mem_append.1 hs with hs | hs
      · exact hbefore.lt_codeSpans _ s hs
      · obtain ⟨c, hc, rfl⟩ := List.mem_map.1 hs
        exact lt_start_of_markdown hbefore hc

end Citation

/-- A citation before which no other one starts is the first of its line. -/
theorem head?_citations {chars : List Char} {c : Citation} (hc : c ∈ citations chars)
    (hfirst : ∀ c' ∈ citations chars, c.start ≤ c'.start) : (citations chars).head? = some c := by
  have hsorted := citations_pairwise chars
  cases hcs : citations chars with
  | nil =>
      rw [hcs] at hc
      cases hc
  | cons first rest =>
      rw [hcs] at hc hfirst hsorted
      rcases List.mem_cons.1 hc with rfl | hc
      · rfl
      · have hlt := ((List.pairwise_cons.1 hsorted).1 c hc).start_lt
        have hle := hfirst first (List.mem_cons_self ..)
        omega

/-- **The first citation behind a text that starts none is the one that is written there.** -/
theorem head?_citations_of_written {before path anchor text written : List Char} {kind : LinkKind}
    (hbefore : Citation.Precursor before)
    (h : Citation.Written path anchor text kind written) (after : List Char) :
    (citations (before ++ (written ++ after))).head? =
      some (.ofWriting kind path anchor text before written) := by
  refine head?_citations ((List.mergeSort_perm _ _).mem_iff.2
    (Citation.mem_collect_of_written hbefore h after)) fun c hc => ?_
  exact hbefore.length_le_start ((List.mergeSort_perm _ _).mem_iff.1 hc)

namespace Link

theorem exists_head?_ofCitations (origin : Origin) (chars : List Char) {cs : List Citation}
    {c : Citation} (h : cs.head? = some c) :
    ∃ markerStop,
      (ofCitations origin chars cs).head? = some (ofCitation origin chars c markerStop) := by
  fun_cases ofCitations origin chars cs with
  | case1 => cases h
  | case2 c' =>
      cases h
      exact ⟨_, rfl⟩
  | case3 c' next rest =>
      cases h
      exact ⟨_, rfl⟩

/-- **Writing a citation and reading it back gives the same citation**: the first link of the line is
the one that is written, at its place and with its parts, whatever comes behind it. -/
theorem head?_ofLine_of_written {before path anchor text written : List Char} {kind : LinkKind}
    (hbefore : Citation.Precursor before)
    (h : Citation.Written path anchor text kind written) (after : List Char) (origin : Origin) :
    ∃ l, (ofLine origin (String.ofList (before ++ (written ++ after)))).head? = some l ∧
      l.kind = kind ∧ l.scope = .crossDocument ∧ l.column = before.length ∧
      l.fullMatch = String.ofList written ∧
      l.target.path.map TargetPath.raw = some (String.ofList path) ∧
      l.target.anchor = some (String.ofList anchor) ∧ l.text = some (String.ofList text) := by
  obtain ⟨markerStop, hhead⟩ := exists_head?_ofCitations origin (before ++ (written ++ after))
    (head?_citations_of_written hbefore h after)
  refine ⟨_, by rw [ofLine, String.toList_ofList]; exact hhead, rfl, rfl, rfl, ?_, rfl, rfl, rfl⟩
  have hslice : slice (before ++ (written ++ after)) before.length
      (before.length + written.length) = written := by
    simp [slice]
  exact congrArg String.ofList hslice

/-- A call in an anchor and a bar in a text, each with another link behind it. -/
theorem head?_ofLine_of_written_call :
    Citation.Precursor "see ".toList ∧
      Citation.Written "t.md".toList "f(g)".toList "x".toList .markdown "[x](t.md#f(g))".toList ∧
      Citation.Written "t.md".toList "f(".toList "x|y".toList .wiki "[[t.md#f(|x|y]]".toList ∧
      (∃ l, (ofLine ⟨"/", "/s.md", 1⟩ "see [x](t.md#f(g)) `[y](u.md)").head? = some l ∧
        l.kind = .markdown ∧ l.column = 4 ∧ l.fullMatch = "[x](t.md#f(g))" ∧
        l.target.path.map TargetPath.raw = some "t.md" ∧ l.target.anchor = some "f(g)") ∧
      ∃ l, (ofLine ⟨"/", "/s.md", 1⟩ "see [[t.md#f(|x|y]](u.md)").head? = some l ∧
        l.kind = .wiki ∧ l.column = 4 ∧ l.fullMatch = "[[t.md#f(|x|y]]" ∧
        l.target.path.map TargetPath.raw = some "t.md" ∧ l.target.anchor = some "f(" := by
  have hbefore : Citation.Precursor "see ".toList :=
    ⟨by decide, by decide, by decide, by decide⟩
  have hcall : Destination.Nested "f(g)".toList :=
    .char (by decide) (by decide) (.parens (.char (by decide) (by decide) .nil) .nil)
  have hnested : Destination.Nested "t.md#f(g)".toList :=
    .char (by decide) (by decide) <| .char (by decide) (by decide) <|
      .char (by decide) (by decide) <| .char (by decide) (by decide) <|
      .char (by decide) (by decide) hcall
  have hplain : Destination.IsPlain "t.md".toList "f(g)".toList :=
    ⟨by decide, by decide, by decide, by simp [Destination.join, Citation.isBracket], by decide,
      hnested, by decide, by decide, by simp [Destination.join, Destination.isQuote]⟩
  have hwikiPlain : Citation.IsWikiPlain "t.md".toList "f(".toList "x|y".toList :=
    ⟨by decide, by decide, by decide, by simp [Citation.isBracket], by simp [Citation.isBracket],
      by simp [Citation.isBracket]⟩
  have hmarkdown : Citation.Written "t.md".toList "f(g)".toList "x".toList .markdown
      "[x](t.md#f(g))".toList := .markdown (by simp [Citation.isBracket]) hplain
  have hwiki : Citation.Written "t.md".toList "f(".toList "x|y".toList .wiki
      "[[t.md#f(|x|y]]".toList := .wiki hwikiPlain
  obtain ⟨l, hl, hkind, -, hcolumn, hmatch, hpath, hanchor, -⟩ :=
    head?_ofLine_of_written hbefore hmarkdown " `[y](u.md)".toList ⟨"/", "/s.md", 1⟩
  obtain ⟨l', hl', hkind', -, hcolumn', hmatch', hpath', hanchor', -⟩ :=
    head?_ofLine_of_written hbefore hwiki "(u.md)".toList ⟨"/", "/s.md", 1⟩
  exact ⟨hbefore, hmarkdown, hwiki, ⟨l, hl, hkind, hcolumn, hmatch, hpath, hanchor⟩,
    l', hl', hkind', hcolumn', hmatch', hpath', hanchor'⟩

end Link

end Citations

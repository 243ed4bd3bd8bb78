/-
**The brackets of a citation.**

Each reader of citations takes a piece of a line whose brackets are of a known shape: the text of a
Markdown link and the inside of a wiki link hold none, the first closing bracket of a cite tag is
its last character, and a name behind a caret goes without.  So the place of one bracket says much
about the places of the others.

Main definitions:

* `Citations.Bracketed` — an opening and a closing bracket with none in between;
* `Citations.Citation.textEnd` — the bracket behind the text of a Markdown link;
* `Citations.Citation.IsMarkdown`, `Citations.Citation.IsWiki`, `Citations.Citation.IsCite`,
  `Citations.Citation.IsCaret` — the shape of a citation of each kind.

Main results:

* `Citations.Citation.isMarkdown_of_mem_ofKind` and its like — **the citations of each kind have its
  shape**.
-/

import Citations.Link.Citation
import Citations.Proofs.Text.Scan
import Mathlib.Data.List.TakeWhile

set_option relaxedAutoImplicit false
set_option autoImplicit false

namespace Citations

open Text

/-! ### Closing parentheses -/

theorem Destination.closingFrom_lt {depth : Int} {pos j : Nat} {cs : List Char}
    (h : closingFrom depth pos cs = some j) : j < pos + cs.length := by
  fun_induction closingFrom depth pos cs
  case case1 | case2 => cases h
  case case3 ih | case4 ih | case6 ih | case7 ih =>
    have := ih h
    simp only [List.length_cons]
    omega
  case case5 =>
    simp only [Option.some.injEq] at h
    simp only [List.length_cons]
    omega

/-- The parenthesis that closes one at the start of a text lies behind it, in the text. -/
theorem closingParen_bounds {tail : List Char} {close : Nat}
    (h : closingParen ('(' :: tail) 0 = some close) : 0 < close ∧ close ≤ tail.length := by
  have h' : Destination.closingFrom (0 + 1) (0 + 1) tail = some close := by
    simpa [closingParen, Destination.closingFrom] using h
  have hle := Destination.le_closingFrom h'
  have hlt := Destination.closingFrom_lt h'
  omega

namespace Citation

variable {prev : Option Char} {rest : List Char} {b : Body} {n : Nat}

/-! ### What the readers read -/

theorem takeWhile_append_of_dropWhile {p : Char → Bool} {cs tail : List Char}
    (h : cs.dropWhile p = tail) : cs = cs.takeWhile p ++ tail := by
  rw [← h, List.takeWhile_append_dropWhile]

theorem eq_false_of_mem_takeWhile_not {p : Char → Bool} {cs : List Char} :
    ∀ c ∈ cs.takeWhile (!p ·), p c = false := by
  intro c hc
  simpa using List.mem_takeWhile_imp hc

theorem ofList_ne_empty {cs : List Char} (h : cs ≠ []) : String.ofList cs ≠ "" := by
  simpa using h

theorem ne_empty_of_mem_ite {cs : List Char} {path : String}
    (h : path ∈ if cs.isEmpty then none else some (String.ofList cs)) : path ≠ "" := by
  split at h
  · cases h
  · rename_i hsome
    cases h
    exact ofList_ne_empty fun hnil => hsome (by rw [hnil]; rfl)

theorem markdown_eq_some (h : markdown prev rest = some (some b, n)) :
    ∃ text tail, rest = '[' :: (text ++ ']' :: '(' :: tail) ∧ (∀ c ∈ text, isBracket c = false) ∧
      prev ≠ some '[' ∧ b.text = some (String.ofList text) ∧ n = text.length + 3 ∧
        n < b.length ∧ b.length ≤ rest.length ∧ ∀ path ∈ b.path, path ≠ "" := by
  unfold markdown at h
  split at h
  · rename_i cs
    split at h
    · cases h
    · rename_i hprev
      rw [not_or] at hprev
      dsimp only at h
      split at h
      · rename_i tail hdrop
        simp only [Option.some.injEq, Prod.mk.injEq] at h
        obtain ⟨hbody, rfl⟩ := h
        have hcs := takeWhile_append_of_dropWhile hdrop
        refine ⟨_, tail, congrArg _ hcs, eq_false_of_mem_takeWhile_not, hprev.2, ?_⟩
        unfold markdownBody at hbody
        split at hbody
        · cases hbody
        · rename_i close hclose
          have hbounds := closingParen_bounds hclose
          dsimp only at hbody
          split at hbody
          · cases hbody
          · rename_i hsome
            cases hbody
            have hlength := congrArg List.length hcs
            simp only [List.length_append, List.length_cons] at hlength
            refine ⟨rfl, rfl, ?_, ?_, ?_⟩
            · dsimp only
              omega
            · simp only [List.length_cons]
              omega
            · intro path hpath
              obtain ⟨cs, hcs, rfl⟩ := Option.map_eq_some_iff.1 hpath
              refine ofList_ne_empty ?_
              rintro rfl
              simp [hcs] at hsome
      · cases h
  · cases h

theorem markedPart_eq_some {mark : Char} {ends : Char → Bool} {cs tail : List Char}
    {part : Option (List Char)} (h : markedPart mark ends cs = some (part, tail)) :
    ∃ front, cs = front ++ tail ∧ ∀ c ∈ front, c = mark ∨ ends c = false := by
  unfold markedPart at h
  split at h
  · rename_i c rest
    split at h
    · rename_i hmark
      dsimp only at h
      split at h
      · cases h
      · simp only [Option.some.injEq, Prod.mk.injEq] at h
        refine ⟨c :: rest.takeWhile (!ends ·), ?_, ?_⟩
        · rw [List.cons_append, ← takeWhile_append_of_dropWhile h.2]
        · intro x hx
          rcases List.mem_cons.1 hx with rfl | hx
          · exact .inl hmark
          · exact .inr (eq_false_of_mem_takeWhile_not x hx)
    · cases h
      exact ⟨[], rfl, by simp⟩
  · cases h
    exact ⟨[], rfl, by simp⟩

theorem wikiPath_eq_some {cs tail : List Char} {path : Option (List Char)}
    (h : wikiPath cs = some (path, tail)) :
    ∃ front, cs = front ++ tail ∧ (∀ c ∈ front, isBracket c = false) ∧ path ≠ some [] := by
  have hplain : ∀ c ∈ cs.takeWhile (!isWikiDelimiter ·), isBracket c = false := by
    intro c hc
    have := eq_false_of_mem_takeWhile_not c hc
    simp only [isWikiDelimiter, Bool.or_eq_false_iff] at this
    exact this.1.1
  refine ⟨cs.takeWhile (!isWikiDelimiter ·), ?_, hplain, ?_⟩
  · unfold wikiPath at h
    dsimp only at h
    split at h
    · cases h
      exact takeWhile_append_of_dropWhile rfl
    · split at h
      · cases h
        exact takeWhile_append_of_dropWhile rfl
      · cases h
  · rintro rfl
    unfold wikiPath at h
    dsimp only at h
    split at h
    · cases h
    · rename_i hsome
      split at h
      · simp only [Option.some.injEq, Prod.mk.injEq] at h
        exact hsome (by rw [h.1]; rfl)
      · cases h

theorem wiki_eq_some (h : wiki prev rest = some (some b, n)) :
    ∃ inner after, rest = '[' :: '[' :: (inner ++ ']' :: ']' :: after) ∧
      (∀ c ∈ inner, isBracket c = false) ∧ n = inner.length + 4 ∧ b.length = n ∧
        ∀ path ∈ b.path, path ≠ "" := by
  unfold wiki at h
  split at h
  · rename_i cs
    obtain ⟨⟨path, rest₁⟩, hpath, h₁⟩ := Option.bind_eq_some_iff.1 h
    obtain ⟨⟨anchor, rest₂⟩, hanchor, h₂⟩ := Option.bind_eq_some_iff.1 h₁
    obtain ⟨⟨text, rest₃⟩, htext, h₃⟩ := Option.bind_eq_some_iff.1 h₂
    obtain ⟨front₁, rfl, hfront₁, hsome⟩ := wikiPath_eq_some hpath
    obtain ⟨front₂, rfl, hfront₂⟩ := markedPart_eq_some hanchor
    obtain ⟨front₃, rfl, hfront₃⟩ := markedPart_eq_some htext
    dsimp only at h₃
    split at h₃
    · rename_i after
      simp only [Option.some.injEq, Prod.mk.injEq] at h₃
      obtain ⟨hbody, rfl⟩ := h₃
      split at hbody
      · cases hbody
      · cases hbody
        refine ⟨front₁ ++ (front₂ ++ front₃), after, by simp, ?_, ?_, rfl, ?_⟩
        · intro c hc
          rcases List.mem_append.1 hc with hc | hc
          · exact hfront₁ c hc
          · rcases List.mem_append.1 hc with hc | hc
            · rcases hfront₂ c hc with rfl | h
              · rfl
              · simp only [Bool.or_eq_false_iff] at h
                exact h.1
            · rcases hfront₃ c hc with rfl | h
              · rfl
              · exact h
        · simp only [List.length_append, List.length_cons]
          omega
        · intro written hwritten
          obtain ⟨cs, rfl, rfl⟩ := Option.map_eq_some_iff.1 hwritten
          exact ofList_ne_empty fun hnil => hsome (congrArg some hnil)
    · cases h₃
  · cases h

theorem cite_eq_some (h : cite prev rest = some (some b, n)) :
    ∃ inner after, rest = '[' :: (inner ++ ']' :: after) ∧ ']' ∉ inner ∧
      n = inner.length + 2 ∧ b.length = n ∧ ∀ path ∈ b.path, path ≠ "" := by
  unfold cite at h
  split at h
  · rename_i hprefix
    obtain ⟨target, rfl⟩ := List.isPrefixOf_iff_prefix.1 hprefix
    have hdrop : ("[cite:".toList ++ target).drop 6 = target := rfl
    rw [hdrop] at h
    dsimp only at h
    split at h
    · cases h
    · rename_i hlength
      simp only [Option.some.injEq, Prod.mk.injEq] at h
      obtain ⟨hbody, rfl⟩ := h
      cases hbody
      cases hafter : target.dropWhile (· ≠ ']') with
      | nil =>
          -- without a closing bracket, the tag would go to the end of the line
          have htarget := takeWhile_append_of_dropWhile hafter
          rw [List.append_nil] at htarget
          rw [← htarget] at hlength
          simp at hlength
      | cons c after =>
          have hc : c = ']' := by
            have := List.head?_dropWhile_not (fun x => decide (x ≠ ']')) target
            rw [hafter] at this
            simpa using this
          subst hc
          have htarget := takeWhile_append_of_dropWhile hafter
          refine ⟨"cite:".toList ++ target.takeWhile (· ≠ ']'), after, ?_, ?_, ?_, rfl,
            fun _ => ne_empty_of_mem_ite⟩
          · rw [List.append_assoc, ← htarget]
            rfl
          · intro hmem
            rcases List.mem_append.1 hmem with hmem | hmem
            · exact absurd hmem (by decide)
            · simpa using List.mem_takeWhile_imp hmem
          · have hcite : "cite:".toList.length = 5 := rfl
            rw [List.length_append, hcite]
            omega
  · cases h

theorem caretName_eq_some {cs name : List Char} (h : caretName cs = some name) :
    ∃ after, cs = '^' :: (name ++ after) ∧ ∀ c ∈ name, isAnchorChar c = true := by
  unfold caretName at h
  split at h
  · rename_i c cs
    split at h
    · rename_i hc
      cases h
      refine ⟨cs.dropWhile isAnchorChar, ?_, ?_⟩
      · rw [List.cons_append, List.takeWhile_append_dropWhile]
      · intro x hx
        rcases List.mem_cons.1 hx with rfl | hx
        · simp [isAnchorChar, hc]
        · exact List.mem_takeWhile_imp hx
    · cases h
  · cases h

theorem caret_eq_some (h : caret prev rest = some (some b, n)) :
    ∃ name after, rest = '^' :: (name ++ after) ∧ (∀ c ∈ name, isAnchorChar c = true) ∧
      n = name.length + 1 ∧ b.length = n ∧ b.path = none ∧
        b.anchor = some (String.ofList name) := by
  unfold caret at h
  split at h
  · obtain ⟨name, hname, h⟩ := Option.map_eq_some_iff.1 h
    obtain ⟨after, hrest, hplain⟩ := caretName_eq_some hname
    simp only [Prod.mk.injEq] at h
    obtain ⟨hbody, rfl⟩ := h
    split at hbody
    · cases hbody
    · cases hbody
      exact ⟨name, after, hrest, hplain, rfl, rfl, rfl, rfl⟩
  · cases h

/-! ### Where a citation was read -/

variable {kind : LinkKind} {read : BodyReader} {avoid : List (Nat × Nat)} {chars : List Char}
  {c : Citation}

/-- A citation of some kind was read at its place, which lies in none of the spans to be avoided. -/
theorem exists_read_of_mem_ofKind (h : c ∈ ofKind kind read avoid chars) :
    ∃ front rest n b, chars = front ++ rest ∧ read front.getLast? rest = some (some b, n) ∧
      c = ⟨kind, b.path, b.anchor, b.text, front.length, front.length + b.length⟩ := by
  obtain ⟨m, hm, hc⟩ := List.mem_filterMap.1 h
  obtain ⟨front, rest, n, hline, hstart, hread, -⟩ := exists_read_of_mem_findAll hm
  split at hc
  · cases hc
  · obtain ⟨b, hb, hc⟩ := Option.map_eq_some_iff.1 hc
    rw [hb] at hread
    rw [← hstart] at hc
    exact ⟨front, rest, n, b, hline, hread, hc.symm⟩

/-- What a reader takes up lies before the next citation of its kind. -/
theorem ofKind_pairwise {taken : Citation → Nat}
    (htaken : ∀ (front rest : List Char) b n, read front.getLast? rest = some (some b, n) →
      taken ⟨kind, b.path, b.anchor, b.text, front.length, front.length + b.length⟩ ≤
        front.length + n) :
    (ofKind kind read avoid chars).Pairwise fun a b => taken a ≤ b.start := by
  refine List.pairwise_filterMap.2 ((findAll_pairwise read chars).imp_of_mem ?_)
  intro m m' hm _ hle a ha b hb
  obtain ⟨front, rest, n, -, hstart, hread, hstop⟩ := exists_read_of_mem_findAll hm
  split at ha
  · cases ha
  · split at hb
    · cases hb
    · obtain ⟨body, hbody, rfl⟩ := Option.map_eq_some_iff.1 ha
      obtain ⟨body', -, rfl⟩ := Option.map_eq_some_iff.1 hb
      rw [hbody] at hread
      have := htaken front rest body n hread
      rw [hstart] at this
      dsimp only
      omega

end Citation

/-! ### Brackets on a line -/

/-- An opening and a closing bracket with none in between. -/
structure Bracketed (chars : List Char) (first last : Nat) : Prop where
  opens : chars[first]? = some '['
  closes : chars[last]? = some ']'
  lt : first < last
  plain : ∀ k c, first < k → k < last → chars[k]? = some c → Citation.isBracket c = false

theorem getElem?_append_add {α : Type} (front rest : List α) (j : Nat) :
    (front ++ rest)[front.length + j]? = rest[j]? := by
  rw [List.getElem?_append_right (by omega), Nat.add_sub_cancel_left]

theorem bracketed_append (front after : List Char) {inner : List Char}
    (h : ∀ c ∈ inner, Citation.isBracket c = false) :
    Bracketed (front ++ '[' :: (inner ++ ']' :: after)) front.length
      (front.length + inner.length + 1) where
  opens := by simp
  closes := by
    rw [Nat.add_assoc, getElem?_append_add]
    simp
  lt := by omega
  plain k c hfirst hlast hc := by
    obtain ⟨j, rfl⟩ := Nat.exists_eq_add_of_lt hfirst
    rw [Nat.add_assoc, getElem?_append_add, List.getElem?_cons_succ,
      List.getElem?_append_left (by omega)] at hc
    exact h c (List.mem_of_getElem? hc)

/-- No bracket is opened between the two, nor by the second of them. -/
theorem Bracketed.not_opens {chars : List Char} {first last k : Nat}
    (h : Bracketed chars first last) (hfirst : first < k) (hlast : k ≤ last) :
    chars[k]? ≠ some '[' := by
  intro hk
  rcases Nat.lt_or_eq_of_le hlast with hlast | rfl
  · exact absurd (h.plain k '[' hfirst hlast hk) (by decide)
  · rw [h.closes] at hk
    cases hk

/-! ### The shapes of citations -/

namespace Citation

variable {avoid : List (Nat × Nat)} {chars : List Char} {c : Citation}

/-- The place of the bracket behind the text of a Markdown link. -/
def textEnd (c : Citation) : Nat := c.start + (c.text.getD "").length + 1

/-- A Markdown link has no brackets in its text, and is not preceded by an opening one. -/
structure IsMarkdown (chars : List Char) (c : Citation) : Prop where
  kind : c.kind = .markdown
  text : Bracketed chars c.start c.textEnd
  prev : ∀ k, k + 1 = c.start → chars[k]? ≠ some '['
  lt_stop : c.textEnd + 2 < c.stop
  stop_le : c.stop ≤ chars.length

/-- A wiki link has two brackets at either end and none in between. -/
structure IsWiki (chars : List Char) (c : Citation) : Prop where
  kind : c.kind = .wiki
  opens : chars[c.start]? = some '['
  inner : Bracketed chars (c.start + 1) (c.stop - 2)
  closes : chars[c.stop - 1]? = some ']'
  stop_le : c.stop ≤ chars.length

/-- The first closing bracket of a cite tag is its last character. -/
structure IsCite (chars : List Char) (c : Citation) : Prop where
  kind : c.kind = .cite
  opens : chars[c.start]? = some '['
  closes : chars[c.stop - 1]? = some ']'
  lt : c.start < c.stop - 1
  plain : ∀ k, c.start ≤ k → k < c.stop - 1 → chars[k]? ≠ some ']'
  stop_le : c.stop ≤ chars.length

/-- A citation by a caret opens no bracket. -/
structure IsCaret (chars : List Char) (c : Citation) : Prop where
  kind : c.kind = .caret
  lt_stop : c.start < c.stop
  plain : ∀ k, c.start ≤ k → k < c.stop → chars[k]? ≠ some '['
  stop_le : c.stop ≤ chars.length

theorem isMarkdown_of_mem_ofKind (h : c ∈ ofKind .markdown markdown avoid chars) :
    c.IsMarkdown chars := by
  obtain ⟨front, rest, n, b, rfl, hread, rfl⟩ := exists_read_of_mem_ofKind h
  obtain ⟨text, tail, rfl, hplain, hprev, htext, rfl, hlt, hle, -⟩ := markdown_eq_some hread
  have hend : front.length + ((some (String.ofList text)).getD "").length + 1 =
      front.length + text.length + 1 := by simp
  refine ⟨rfl, ?_, ?_, ?_, ?_⟩
  · rw [textEnd, htext, hend]
    exact bracketed_append front ('(' :: tail) hplain
  · intro k hk hopens
    dsimp only at hk
    rw [List.getElem?_append_left (by omega)] at hopens
    rw [List.getLast?_eq_getElem?, ← hk, Nat.add_sub_cancel] at hprev
    exact hprev hopens
  · rw [textEnd, htext, hend]
    dsimp only
    omega
  · simp only [List.length_append]
    omega

theorem isWiki_of_mem_ofKind (h : c ∈ ofKind .wiki wiki avoid chars) : c.IsWiki chars := by
  obtain ⟨front, rest, n, b, rfl, hread, rfl⟩ := exists_read_of_mem_ofKind h
  obtain ⟨inner, after, rfl, hplain, rfl, hlength, -⟩ := wiki_eq_some hread
  have hinner := bracketed_append (front ++ ['[']) (']' :: after) hplain
  have hlast : (front ++ ['[']).length + inner.length + 1 = front.length + b.length - 2 := by
    simp only [List.length_append, List.length_singleton]
    omega
  rw [List.append_assoc, hlast, List.length_append] at hinner
  refine ⟨rfl, by simp, hinner, ?_, ?_⟩
  · have hend : front.length + b.length - 1 = front.length + (inner.length + 3) := by omega
    rw [hend, getElem?_append_add]
    simp
  · simp only [List.length_append, List.length_cons]
    omega

theorem isCite_of_mem_ofKind (h : c ∈ ofKind .cite cite avoid chars) : c.IsCite chars := by
  obtain ⟨front, rest, n, b, rfl, hread, rfl⟩ := exists_read_of_mem_ofKind h
  obtain ⟨inner, after, rfl, hplain, rfl, hlength, -⟩ := cite_eq_some hread
  have hlast : front.length + b.length - 1 = front.length + (inner.length + 1) := by omega
  refine ⟨rfl, by simp, ?_, ?_, ?_, ?_⟩
  · rw [hlast, getElem?_append_add]
    simp
  · dsimp only
    omega
  · intro k hk hlt hcloses
    dsimp only at hk hlt
    obtain ⟨j, rfl⟩ := Nat.exists_eq_add_of_le hk
    rw [getElem?_append_add] at hcloses
    cases j with
    | zero => cases hcloses
    | succ j =>
        rw [List.getElem?_cons_succ, List.getElem?_append_left (by omega)] at hcloses
        exact hplain (List.mem_of_getElem? hcloses)
  · simp only [List.length_append, List.length_cons]
    omega

theorem isCaret_of_mem_ofKind (h : c ∈ ofKind .caret caret avoid chars) : c.IsCaret chars := by
  obtain ⟨front, rest, n, b, rfl, hread, rfl⟩ := exists_read_of_mem_ofKind h
  obtain ⟨name, after, rfl, hname, rfl, hlength, -, -⟩ := caret_eq_some hread
  refine ⟨rfl, ?_, ?_, ?_⟩
  · dsimp only
    omega
  · intro k hk hlt hopens
    dsimp only at hk hlt
    obtain ⟨j, rfl⟩ := Nat.exists_eq_add_of_le hk
    rw [getElem?_append_add] at hopens
    cases j with
    | zero => cases hopens
    | succ j =>
        rw [List.getElem?_cons_succ, List.getElem?_append_left (by omega)] at hopens
        exact absurd (hname _ (List.mem_of_getElem? hopens)) (by decide)
  · simp only [List.length_append, List.length_cons]
    omega

end Citation

end Citations

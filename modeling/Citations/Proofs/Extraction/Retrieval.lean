/-
**What becomes of a link that was checked.**

Checking a link makes sure that its document has an anchor of the name that the link gives.  The
text is looked for later, in the document that was heard of then, whatever has become of the file.
But it is looked for among the headings or among the blocks, as the link says, and not for the
anchor that checking came upon; so a link that was found in order has a text exactly when its
document offers a passage of the kind that it means.

Main definitions:

* `Citations.Link.textOf` — what a link cites in its document;
* `Citations.Session.cited` — the text that a link cites, as a session answers;
* `Citations.Checking.Destination.path?` — the file that the path of a link leads to.

Main results:

* `Citations.Session.cited_eq` — the text of a link is a passage of its document;
* `Citations.Session.Sound.run_acrossDocuments` — what a link that was found in order makes sure of;
* `Citations.Session.cited_of_checked` — **a link that was found in order has a text exactly when
  its document offers a passage**.
-/

import Citations.Proofs.Checking.Run
import Citations.Proofs.Document.Passage
import Citations.Proofs.Session.Memory
import Mathlib.Data.List.Basic

set_option relaxedAutoImplicit false
set_option autoImplicit false

namespace Citations

/-! ### Texts -/

/-- What a link cites in its document, once it is known what comes of reading that. -/
def Link.textOf (l : Link) : Except ReadFailure Document → Except RetrievalFailure String
  | .error x => .error (.unreadable x)
  | .ok d =>
      match l.passage? d with
      | none => .error (.missing l.contentPath (l.target.anchor.getD ""))
      | some text => .ok text

theorem Link.textOf_of_passage? {l : Link} {d : Document} {text : String}
    (h : l.passage? d = some text) : l.textOf (.ok d) = .ok text := by
  simp only [Link.textOf, h]

theorem Link.textOf_of_passage?_eq_none {l : Link} {d : Document} (h : l.passage? d = none) :
    l.textOf (.ok d) = .error (.missing l.contentPath (l.target.anchor.getD "")) := by
  simp only [Link.textOf, h]

/-- A link cites a text in a document exactly when there is a passage. -/
theorem Link.exists_textOf_iff (l : Link) (d : Document) :
    (∃ text, l.textOf (.ok d) = .ok text) ↔ (l.passage? d).isSome := by
  cases h : l.passage? d with
  | none => simp [Link.textOf_of_passage?_eq_none h]
  | some text => simp [Link.textOf_of_passage? h]

/-- A text is retrieved by asking for one document. -/
theorem Link.retrieve_eq (l : Link) :
    l.retrieve = .document l.contentPath fun r => .answer (l.textOf r) := by
  refine congrArg (Inquiry.document l.contentPath) (funext fun r => ?_)
  cases r with
  | error x => rfl
  | ok d =>
      change (match l.passage? d with
        | none => Inquiry.answer (.error (.missing l.contentPath (l.target.anchor.getD "")))
        | some text => .answer (.ok text)) = Inquiry.answer (l.textOf (.ok d))
      cases h : l.passage? d with
      | none => rw [Link.textOf_of_passage?_eq_none h]
      | some text => rw [Link.textOf_of_passage? h]

theorem Link.asksDocuments_retrieve (l : Link) : l.retrieve.AsksDocuments := by
  rw [Link.retrieve_eq]
  exact .document _ fun r => .answer _

/-- The text that a link cites, as a session answers. -/
def Session.cited (t : FileTree) (s : Session) (l : Link) : Except RetrievalFailure String :=
  (s.run t l.retrieve).2

/-- The text of a link is a passage of its document. -/
theorem Session.cited_eq (t : FileTree) (s : Session) (l : Link) :
    s.cited t l = l.textOf (s.document t l.contentPath).2 := by
  rw [Session.cited, Link.retrieve_eq]
  rfl

/-! ### Where a path leads -/

namespace Resolution

variable {t : FileTree} {raw source path : String}

theorem literal?_ne_empty (h : literal? t raw source = some path) : path ≠ "" := by
  obtain ⟨reading, -, rfl⟩ := List.mem_map.1 (List.mem_of_find?_eq_some h)
  exact Path.normalize_ne_empty _

theorem linked?_ne_empty (h : linked? t raw source = .ok (some path)) : path ≠ "" := by
  obtain ⟨real, -, hfound⟩ := Except.map_eq_ok_iff.1 h
  split at hfound
  · cases hfound
  · exact literal?_ne_empty hfound

theorem vault?_ne_empty (h : vault? t raw source = some path) : path ≠ "" := by
  unfold vault? at h
  dsimp only at h
  split at h
  · obtain ⟨file, -, rfl⟩ := Option.map_eq_some_iff.1 h
    exact Path.normalize_ne_empty file
  · cases h

/-- The files that a path leads to directly have paths. -/
theorem direct?_ne_empty (h : direct? t raw source = .ok (some path)) : path ≠ "" := by
  rcases eq_of_direct? h with hliteral | hlinked | hvault
  · exact literal?_ne_empty hliteral
  · exact linked?_ne_empty hlinked
  · exact vault?_ne_empty hvault

end Resolution

/-- The file that the path of a link leads to. -/
def Checking.Destination.path? : Checking.Destination → Option String
  | .found path | .elsewhere path _ => some path
  | .missing _ => none

theorem Checking.path?_byName {t : FileTree} {raw source : String}
    {named : Option NameResolution} {destination : Destination} {path : String}
    (h : byName t raw source named = .ok destination) (hpath : destination.path? = some path) :
    ∃ r, named = some r ∧ r.path? = some path := by
  unfold byName at h
  split at h
  · cases h
    cases hpath
  · rename_i r
    split at h
    · cases h
      cases hpath
    · rename_i found hfound
      obtain ⟨expected, -, rfl⟩ := Except.map_eq_ok_iff.1 h
      obtain rfl : found = path := by
        split at hpath <;> exact Option.some.inj hpath
      exact ⟨r, rfl, hfound⟩

namespace Session

open Text

variable {s : Session} {t : FileTree} {raw source path a : String}

/-- The file that the path of a link leads to has a path. -/
theorem Sound.path_ne_of_target (hs : s.Sound) {destination : Checking.Destination}
    (h : (s.run t (Checking.target t raw source)).2 = .ok destination)
    (hpath : destination.path? = some path) : path ≠ "" := by
  cases hdirect : Resolution.direct? t raw source with
  | error e =>
      rw [Checking.target, hdirect] at h
      cases h
  | ok found =>
      cases found with
      | some file =>
          rw [run_target_of_direct hdirect] at h
          cases h
          cases hpath
          exact Resolution.direct?_ne_empty hdirect
      | none =>
          rw [run_target_of_not_direct hdirect] at h
          obtain ⟨named, hnamed, hdestination⟩ := Except.bind_eq_ok_iff.1 h
          obtain ⟨r, rfl, hr⟩ := Checking.path?_byName hdestination hpath
          exact hs.path_ne_of_find hnamed hr

/-! ### Links that were found in order -/

/-- Nothing is wrong with an anchor only if the document can be read and has it. -/
theorem run_withAnchor {policy : SuggestionPolicy} {outcome : Verdict} {note : Option String}
    (ha : a ≠ "")
    (h : (s.run t (Checking.withAnchor policy (some a) path outcome note)).2.problem? = none) :
    ∃ d, (s.document t path).2 = .ok d ∧ d.hasAnchor a = true ∧
      s.run t (Checking.withAnchor policy (some a) path outcome note) =
        ((s.document t path).1, outcome) := by
  rw [run_withAnchor_eq ha] at h ⊢
  cases hd : (s.document t path).2 with
  | error e =>
      rw [hd] at h
      cases h
  | ok d =>
      rw [hd] at h
      cases hhas : d.hasAnchor a with
      | true => exact ⟨d, rfl, hhas, by simp only [anchorVerdict, hhas, if_true]⟩
      | false =>
          simp only [anchorVerdict, hhas, Bool.false_eq_true, if_false] at h
          cases h

/-- A link with an anchor that was found in order: its document was heard of, and has the anchor. -/
theorem Sound.run_acrossDocuments (hs : s.Sound) {policy : SuggestionPolicy} {v : Verdict}
    (ha : a ≠ "")
    (hv : (s.run t (Checking.acrossDocuments t policy raw (some a) source)).2 = .ok v)
    (hok : v.problem? = none) :
    ∃ (r : Session) (path : String) (d : Document), r.Sound ∧ path ≠ "" ∧
      (r.document t path).2 = .ok d ∧ d.hasAnchor a = true ∧
      (s.run t (Checking.acrossDocuments t policy raw (some a) source)).1 =
        (r.document t path).1 ∧
      v.resolved? = some path := by
  have hsound := hs.run t (Checking.target t raw source)
  obtain ⟨destination, htarget, hrun⟩ := exists_of_run_acrossDocuments hv
  rw [hrun] at hv ⊢
  have hpath {path : String} : destination.path? = some path → path ≠ "" :=
    hs.path_ne_of_target htarget
  generalize (s.run t (Checking.target t raw source)).1 = s' at hsound hv ⊢
  cases destination with
  | missing message =>
      obtain ⟨trace, -, rfl⟩ := Except.map_eq_ok_iff.1 hv
      cases hok
  | found path =>
      rw [run_verdictAt_found] at hv ⊢
      obtain rfl := Except.ok.inj hv
      obtain ⟨d, hd, hhas, hanchored⟩ := run_withAnchor ha hok
      rw [hanchored]
      exact ⟨s', path, d, hsound, hpath rfl, hd, hhas, rfl, rfl⟩
  | elsewhere path message =>
      cases hmended : Checking.conversion t raw (some a) source path with
      | error e =>
          simp only [Checking.verdictAt, hmended] at hv
          cases hv
      | ok mended =>
          rw [run_verdictAt_elsewhere hmended] at hv ⊢
          obtain rfl := Except.ok.inj hv
          obtain ⟨d, hd, hhas, hanchored⟩ := run_withAnchor ha hok
          rw [hanchored]
          exact ⟨s', path, d, hsound, hpath rfl, hd, hhas, rfl, rfl⟩

theorem Sound.run_check (hs : s.Sound) {policy : SuggestionPolicy} {l : Link} {v : Verdict}
    (hscope : l.scope = .crossDocument) (hanchor : l.target.anchor = some a) (ha : a ≠ "")
    (hv : (s.run t (Checking.check t policy source l)).2 = .ok v) (hok : v.problem? = none) :
    ∃ (r : Session) (path : String) (d : Document), r.Sound ∧ path ≠ "" ∧
      (r.document t path).2 = .ok d ∧ d.hasAnchor a = true ∧
      (s.run t (Checking.check t policy source l)).1 = (r.document t path).1 ∧
      v.resolved? = some path := by
  obtain ⟨target, htarget⟩ : ∃ target, l.target.path = some target := by
    rw [← Option.isSome_iff_exists]
    by_contra hnone
    simp [Link.scope, hnone] at hscope
  rw [run_check_eq htarget, hanchor] at hv ⊢
  dsimp only at hv ⊢
  cases hacross : (s.run t (Checking.acrossDocuments t policy target.raw (some a) source)).2 with
  | error e =>
      rw [hacross] at hv
      cases hv
  | ok v' =>
      rw [hacross] at hv
      cases hv
      exact hs.run_acrossDocuments ha hacross hok

/-- **A link that was found in order has a text exactly when its document offers a passage** of the
kind that the link means.  The document is the one that was heard of in checking, and has the
anchor, whatever was asked in between and whatever has become of the file; without a passage, the
anchor is reported as missing from it. -/
theorem cited_of_checked {β : Type} (hs : s.Reachable) {policy : SuggestionPolicy} {l : Link}
    {v : Verdict} (hscope : l.scope = .crossDocument) (hanchor : l.target.anchor = some a)
    (ha : a ≠ "") (hv : (s.run t (Checking.check t policy source l)).2 = .ok v)
    (hok : v.problem? = none) (t' : FileTree) (q : Inquiry β) {t'' : FileTree}
    (hcwd : t''.cwd = t.cwd) :
    let s' := ((s.run t (Checking.check t policy source l)).1.run t' q).1
    let l' := { l with verdict := some v }
    ∃ (d : Document) (path : String), v.resolved? = some path ∧
      (s'.document t'' path).2 = .ok d ∧ d.IsParsed ∧ d.hasAnchor a = true ∧
      ((∃ text, s'.cited t'' l' = .ok text) ↔ d.offers l.anchorKind a = true) ∧
      (d.offers l.anchorKind a = false → s'.cited t'' l' = .error (.missing path a)) := by
  intro s' l'
  obtain ⟨r, path, d, hr, hpath, hd, hhas, hsession, hresolved⟩ :=
    hs.sound.run_check hscope hanchor ha hv hok
  have hagain : (s'.document t'' path).2 = .ok d := by
    change ((((s.run t (Checking.check t policy source l)).1.run t' q).1).document t'' path).2 = _
    rw [hsession]
    exact hr.document_of_heard hd t' q hcwd
  have hparsed := hr.isParsed_of_document hd
  -- the path that checking found is preferred to the one that the link gives, unless it is empty
  have hcontent : l'.contentPath = path := by
    have hfound : l'.verdict.bind Verdict.resolved? = some path := hresolved
    rw [Link.contentPath, hfound]
    split
    · rename_i hnone
      cases hnone
    · rename_i hempty
      exact absurd (Option.some.inj hempty) hpath
    · rename_i hsome
      exact (Option.some.inj hsome).symm
  have hpassage := Link.isSome_passage?_iff hparsed l'
  have hcited : s'.cited t'' l' = l'.textOf (.ok d) := by
    rw [cited_eq, hcontent, hagain]
  have hname : l'.target.anchor.getD "" = a := by
    change l.target.anchor.getD "" = a
    rw [hanchor]
    rfl
  rw [hname] at hpassage
  refine ⟨d, path, hresolved, hagain, hparsed, hhas, ?_, fun hnone => ?_⟩
  · rw [hcited, Link.exists_textOf_iff, hpassage]
  · have hmissing : l'.passage? d = none := by
      rw [← Option.not_isSome_iff_eq_none, hpassage]
      simpa using hnone
    rw [hcited, Link.textOf_of_passage?_eq_none hmissing, hcontent, hname]

/-- A document with a section and a block in it. -/
def note : FileTree where
  cwd := []
  nodes := [(["t.md"], .file "# One\n\ntext ^para-one\n".toUTF8.data.toList)]

/-- A session that has not read the document. -/
def noteSession : Session := .start note .standard ⟨.finite false 0, 5⟩ none

/-- A link to a place in the document, not checked yet. -/
def noteLink (anchor : String) : Link where
  kind := .markdown
  anchorKind := anchorKindOf (some anchor)
  source := "/source.md"
  target := ⟨some ⟨"t.md", "/t.md", "t.md"⟩, some anchor⟩
  text := some "x"
  fullMatch := "[x](t.md#" ++ anchor ++ ")"
  line := 1
  column := 0
  marker := none
  verdict := none

/-- The link to the block is found in order; what becomes of it is settled by its document. -/
theorem cited_of_checked_note :
    let checked := noteSession.run note (Checking.check note noteSession.policy "/source.md"
      (noteLink "^para-one"))
    checked.2 = .ok (.valid (some "/t.md")) ∧
      ∃ (d : Document) (path : String), some "/t.md" = some path ∧
        (checked.1.document note path).2 = .ok d ∧ d.hasAnchor "^para-one" = true ∧
        ((∃ text, checked.1.cited note
            { noteLink "^para-one" with verdict := some (.valid (some "/t.md")) } = .ok text) ↔
          d.offers (some .block) "^para-one" = true) := by
  have hv : (noteSession.run note (Checking.check note noteSession.policy "/source.md"
      (noteLink "^para-one"))).2 = .ok (.valid (some "/t.md")) := by decide +kernel
  have hs : noteSession.Reachable := .start ..
  obtain ⟨d, path, hpath, hd, -, hhas, hoffers, -⟩ :=
    cited_of_checked hs rfl rfl (by decide) hv rfl note (.answer ()) rfl
  exact ⟨hv, d, path, hpath, hd, hhas, hoffers⟩

/-- A name without a caret is a heading's as far as the link is concerned, although checking takes
it for the block: **not every link of a line that was found in order has a text**. -/
theorem not_cited_of_checked :
    ¬ ∀ (s : Session) (t : FileTree) (policy : SuggestionPolicy) (origin : Origin)
      (line : String) (l : Link) (a : String) (v : Verdict), s.Reachable →
      l ∈ Link.ofLine origin line → l.scope = .crossDocument → l.target.anchor = some a →
      a ≠ "" → (s.run t (Checking.check t policy origin.source l)).2 = .ok v →
      v.problem? = none →
      ∃ text, (s.run t (Checking.check t policy origin.source l)).1.cited t
        { l with verdict := some v } = .ok text := by
  intro h
  have hline : noteLink "para-one" ∈ Link.ofLine ⟨"/", "/source.md", 1⟩ "[x](t.md#para-one)" := by
    decide +kernel
  have hv : (noteSession.run note (Checking.check note noteSession.policy "/source.md"
      (noteLink "para-one"))).2 = .ok (.valid (some "/t.md")) := by decide +kernel
  have hmissing : (noteSession.run note (Checking.check note noteSession.policy "/source.md"
      (noteLink "para-one"))).1.cited note
        { noteLink "para-one" with verdict := some (.valid (some "/t.md")) } =
      .error (.missing "/t.md" "para-one") := by decide +kernel
  obtain ⟨text, htext⟩ := h noteSession note noteSession.policy ⟨"/", "/source.md", 1⟩ _
    (noteLink "para-one") "para-one" _ (.start ..) hline rfl rfl (by decide) hv rfl
  rw [hmissing] at htext
  cases htext

end Session

end Citations

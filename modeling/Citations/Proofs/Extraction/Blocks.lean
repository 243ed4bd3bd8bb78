/-
**What an extraction accounts for.**

An extraction reports once on each link that leads to another document.  A report either names the
block that holds the text of its link, or names none; two links name the same block exactly when
their texts are equal; and no block is there that no report names.  That needs the content ids of
the texts to be as good as the texts themselves, and nothing else: links may carry any verdicts, and
the session may have read what it likes before.

Main definitions:

* `Citations.Link.isFollowed` — whether a link is followed at all;
* `Citations.Extraction.Accounts` — **what an extraction owes to its links**.

Main results:

* `Citations.mem_collect` — a block holds one of the texts, under its content id;
* `Citations.Session.Sound.run_extract` — an extraction, report by report;
* `Citations.Session.extract_accounts` — **an extraction accounts for its links**.
-/

import Citations.Extraction
import Citations.Proofs.Extraction.Retrieval

set_option relaxedAutoImplicit false
set_option autoImplicit false

namespace Citations

open Eligibility (Rule)

/-! ### Blocks -/

theorem mem_collectStep {blocks : List ContentBlock} {text : String} {b : ContentBlock}
    (h : b ∈ collectStep blocks text) : b ∈ blocks ∨ b = ⟨contentId text, text⟩ := by
  unfold collectStep at h
  dsimp only at h
  split at h
  · exact .inl h
  · rcases List.mem_append.1 h with h | h
    · exact .inl h
    · exact .inr (List.mem_singleton.1 h)

theorem mem_foldl_collectStep {b : ContentBlock} :
    ∀ (texts : List String) (blocks : List ContentBlock), b ∈ texts.foldl collectStep blocks →
      b ∈ blocks ∨ ∃ text ∈ texts, b = ⟨contentId text, text⟩ := by
  intro texts
  induction texts with
  | nil => intro blocks h; exact .inl h
  | cons text texts ih =>
      intro blocks h
      rcases ih _ h with h | ⟨other, hother, rfl⟩
      · rcases mem_collectStep h with h | rfl
        · exact .inl h
        · exact .inr ⟨text, List.mem_cons_self .., rfl⟩
      · exact .inr ⟨other, List.mem_cons_of_mem _ hother, rfl⟩

/-- A block holds one of the texts, under its content id. -/
theorem mem_collect {texts : List String} {b : ContentBlock} (h : b ∈ collect texts) :
    ∃ text ∈ texts, b = ⟨contentId text, text⟩ := by
  rcases mem_foldl_collectStep texts [] h with h | h
  · cases h
  · exact h

/-- Each text has its own block, as long as no two texts have the same content id. -/
theorem mem_collect_of_mem {texts : List String}
    (hids : ∀ x ∈ texts, ∀ y ∈ texts, contentId x = contentId y → x = y) {text : String}
    (h : text ∈ texts) : (⟨contentId text, text⟩ : ContentBlock) ∈ collect texts := by
  have hid : contentId text ∈ (collect texts).map ContentBlock.id :=
    mem_collect_ids.2 (List.mem_map_of_mem h)
  obtain ⟨b, hb, hbid⟩ := List.mem_map.1 hid
  obtain ⟨other, hother, rfl⟩ := mem_collect hb
  have hsame := hids other hother text h hbid
  subst hsame
  exact hb

namespace Extraction

variable {e : Extraction}

theorem mem_texts {text : String} :
    text ∈ e.texts ↔ ∃ r ∈ e.reports, r.finding.text? = some text :=
  List.mem_filterMap

end Extraction

/-! ### Following a link -/

/-- Whether a link is followed: it was checked, nothing is wrong with it, and the rules let it be
extracted. -/
def Link.isFollowed (rules : List Rule) (fullFiles : Bool) (l : Link) : Bool :=
  l.verdict.any (·.problem?.isNone) && (Eligibility.decide rules fullFiles l).eligible

/-- What came of a link that is followed. -/
def Finding.ofText (ruling : Eligibility.Ruling) : Except RetrievalFailure String → Finding
  | .error x => .unavailable x
  | .ok text => .found ruling text

theorem Link.finding_of_isFollowed {rules : List Rule} {fullFiles : Bool} {l : Link}
    (h : l.isFollowed rules fullFiles = true) :
    l.finding rules fullFiles = l.retrieve.bind fun r =>
      .answer (.ofText (Eligibility.decide rules fullFiles l) r) := by
  obtain ⟨hv, heligible⟩ := Bool.and_eq_true_iff.1 h
  obtain ⟨v, hv, hp⟩ := (Option.any_eq_true _ _).1 hv
  have hp : v.problem? = none := Option.isNone_iff_eq_none.1 hp
  unfold Link.finding
  simp only [hv, hp, heligible, if_true]
  refine congrArg l.retrieve.bind (funext fun r => ?_)
  cases r with
  | error x => rfl
  | ok text => rfl

theorem Link.finding_of_not_isFollowed {rules : List Rule} {fullFiles : Bool} {l : Link}
    (h : l.isFollowed rules fullFiles = false) :
    ∃ f : Finding, l.finding rules fullFiles = .answer f ∧ f.status = .skipped := by
  unfold Link.finding
  cases hv : l.verdict with
  | none => exact ⟨.unchecked, rfl, rfl⟩
  | some v =>
      cases hp : v.problem? with
      | some problem => exact ⟨.broken problem, by simp only [hp], rfl⟩
      | none =>
          have hineligible : (Eligibility.decide rules fullFiles l).eligible = false := by
            simpa [Link.isFollowed, hv, hp] using h
          exact ⟨.ineligible (Eligibility.decide rules fullFiles l), by simp [hp, hineligible], rfl⟩

theorem Link.asksDocuments_finding (rules : List Rule) (fullFiles : Bool) (l : Link) :
    (l.finding rules fullFiles).AsksDocuments := by
  cases h : l.isFollowed rules fullFiles with
  | true =>
      rw [Link.finding_of_isFollowed h]
      exact l.asksDocuments_retrieve.bind fun r => .answer _
  | false =>
      obtain ⟨f, hf, -⟩ := Link.finding_of_not_isFollowed h
      rw [hf]
      exact .answer f

theorem asksDocuments_extract (rules : List Rule) (fullFiles : Bool) (links : List Link) :
    (extract rules fullFiles links).AsksDocuments := by
  refine Inquiry.AsksDocuments.bind (.each (fun l => ?_) _) fun reports => .answer _
  exact (l.asksDocuments_finding rules fullFiles).bind fun f => .answer _

/-! ### An extraction in a session -/

namespace Session

variable {s : Session}

/-- What came of a link in a session: its text, if it was followed. -/
theorem run_finding (t : FileTree) (s : Session) (rules : List Rule) (fullFiles : Bool)
    (l : Link) :
    (l.isFollowed rules fullFiles = true ∧ (s.run t (l.finding rules fullFiles)).2 =
        .ofText (Eligibility.decide rules fullFiles l) (s.cited t l)) ∨
      (l.isFollowed rules fullFiles = false ∧
        (s.run t (l.finding rules fullFiles)).2.status = .skipped) := by
  cases h : l.isFollowed rules fullFiles with
  | true =>
      refine .inl ⟨rfl, ?_⟩
      rw [Link.finding_of_isFollowed h, run_bind]
      rfl
  | false =>
      obtain ⟨f, hf, hstatus⟩ := Link.finding_of_not_isFollowed h
      refine .inr ⟨rfl, ?_⟩
      rw [hf]
      exact hstatus

/-- An extraction, report by report. -/
theorem Sound.run_extract (hs : s.Sound) (t : FileTree) (rules : List Rule) (fullFiles : Bool)
    (links : List Link) :
    (s.run t (extract rules fullFiles links)).2.reports =
      (links.filter fun l => l.scope = .crossDocument).map fun l =>
        ⟨l, (s.run t (l.finding rules fullFiles)).2⟩ := by
  have files : String → Except SearchFailure (Option NameResolution) := fun _ => .ok none
  rw [hs.run_eq_eval t (asksDocuments_extract rules fullFiles links) files]
  have heval : ∀ l : Link, (s.run t (l.finding rules fullFiles)).2 =
      (l.finding rules fullFiles).eval (fun path => (s.document t path).2) files :=
    fun l => hs.run_eq_eval t (l.asksDocuments_finding rules fullFiles) files
  simp only [heval]
  change Extraction.reports (((Inquiry.each _ _).bind _).eval _ files) = _
  rw [Inquiry.eval_bind, Inquiry.eval_each]
  refine List.map_congr_left fun l _ => ?_
  change ((l.finding rules fullFiles).bind _).eval _ files = _
  rw [Inquiry.eval_bind]
  rfl

/-- The three ways in which a report can come about. -/
theorem Sound.report_cases (hs : s.Sound) {t : FileTree} {rules : List Rule} {fullFiles : Bool}
    {links : List Link} {r : Report}
    (h : r ∈ (s.run t (extract rules fullFiles links)).2.reports) :
    (∃ text, s.cited t r.link = .ok text ∧ r.link.isFollowed rules fullFiles = true ∧
        r.finding = .found (Eligibility.decide rules fullFiles r.link) text) ∨
      (∃ x, s.cited t r.link = .error x ∧ r.link.isFollowed rules fullFiles = true ∧
        r.finding = .unavailable x) ∨
      r.link.isFollowed rules fullFiles = false ∧ r.finding.status = .skipped := by
  rw [hs.run_extract] at h
  obtain ⟨l, -, rfl⟩ := List.mem_map.1 h
  rcases s.run_finding t rules fullFiles l with ⟨hfollowed, hf⟩ | ⟨hskipped, hf⟩
  · cases hc : s.cited t l with
    | ok text => exact .inl ⟨text, rfl, hfollowed, by rw [hf, hc]; rfl⟩
    | error x => exact .inr (.inl ⟨x, rfl, hfollowed, by rw [hf, hc]; rfl⟩)
  · exact .inr (.inr ⟨hskipped, hf⟩)

/-- A report of success is about the text that its link cites. -/
theorem Sound.text?_of_success (hs : s.Sound) {t : FileTree} {rules : List Rule}
    {fullFiles : Bool} {links : List Link} {r : Report}
    (h : r ∈ (s.run t (extract rules fullFiles links)).2.reports)
    (hr : r.finding.status = .success) :
    ∃ text, s.cited t r.link = .ok text ∧ r.finding.text? = some text := by
  rcases hs.report_cases h with ⟨text, hc, -, hf⟩ | ⟨x, -, -, hf⟩ | ⟨-, hf⟩
  · exact ⟨text, hc, by rw [hf]; rfl⟩
  · rw [hf] at hr
    cases hr
  · rw [hf] at hr
    cases hr

end Session

/-! ### The account -/

/-- **What an extraction owes to its links**, given the text that each of them cites, or why there
is none. -/
structure Extraction.Accounts (e : Extraction) (rules : List Rule) (fullFiles : Bool)
    (links : List Link) (cited : Link → Except RetrievalFailure String) : Prop where
  /-- There is one report on each link that leads to another document, in order. -/
  links_eq : e.reports.map Report.link = links.filter fun l => l.scope = .crossDocument
  /-- Exactly the links that are not followed are skipped. -/
  skipped_iff : ∀ r ∈ e.reports,
    r.finding.status = .skipped ↔ r.link.isFollowed rules fullFiles = false
  /-- A link without a text is reported as such, and stops nothing. -/
  unavailable : ∀ r ∈ e.reports, r.finding.status = .error →
    ∃ x, cited r.link = .error x ∧ r.finding = .unavailable x
  /-- A report of success names the block that holds the text of its link. -/
  block : ∀ r ∈ e.reports, r.finding.status = .success →
    ∃ text, cited r.link = .ok text ∧ ∃ b ∈ e.blocks, r.contentId? = some b.id ∧
      b.content = text ∧ b.length = text.length ∧ b.id = contentId text
  /-- Any other report names none. -/
  noBlock : ∀ r ∈ e.reports, r.finding.status ≠ .success → r.contentId? = none
  /-- Two links share a block exactly when their texts are equal. -/
  shared_iff : ∀ r ∈ e.reports, ∀ r' ∈ e.reports, r.finding.status = .success →
    r'.finding.status = .success → (r.contentId? = r'.contentId? ↔ cited r.link = cited r'.link)
  /-- Every block is named by a report of success. -/
  named : ∀ b ∈ e.blocks, ∃ r ∈ e.reports,
    r.finding.status = .success ∧ r.contentId? = some b.id
  /-- No two blocks have the same id. -/
  nodup_ids : (e.blocks.map ContentBlock.id).Nodup

namespace Session

variable {s : Session}

/-- **An extraction accounts for its links**, whatever their verdicts are and whatever the session
has read before, as long as no two texts that are found have the same content id.  What the links
cite is the same after it. -/
theorem extract_accounts (hs : s.Reachable) (t : FileTree) (rules : List Rule) (fullFiles : Bool)
    (links : List Link)
    (hids : ∀ x ∈ (s.run t (extract rules fullFiles links)).2.texts,
      ∀ y ∈ (s.run t (extract rules fullFiles links)).2.texts,
        contentId x = contentId y → x = y) :
    (s.run t (extract rules fullFiles links)).2.Accounts rules fullFiles links (s.cited t) ∧
      ∀ l, (s.run t (extract rules fullFiles links)).1.cited t l = s.cited t l := by
  have hsound := hs.sound
  refine ⟨⟨?links, ?skipped, ?unavailable, ?block, ?noBlock, ?shared, ?named, nodup_collect _⟩,
    fun l => hsound.run_run t _ l.asksDocuments_retrieve⟩
  case links =>
    rw [hsound.run_extract, List.map_map]
    exact List.map_id _
  case skipped =>
    intro r hr
    rcases hsound.report_cases hr with ⟨_, -, hl, hf⟩ | ⟨_, -, hl, hf⟩ | ⟨hl, hf⟩
    · simp [hl, hf, Finding.status]
    · simp [hl, hf, Finding.status]
    · simp [hl, hf]
  case unavailable =>
    intro r hr herror
    rcases hsound.report_cases hr with ⟨_, -, -, hf⟩ | ⟨x, hx, -, hf⟩ | ⟨-, hf⟩
    · rw [hf] at herror
      cases herror
    · exact ⟨x, hx, hf⟩
    · rw [hf] at herror
      cases herror
  case block =>
    intro r hr hsuccess
    obtain ⟨text, hcited, htext⟩ := hsound.text?_of_success hr hsuccess
    -- the block of this id might hold another text, were it not for `hids`
    have hmem := mem_collect_of_mem hids (Extraction.mem_texts.2 ⟨r, hr, htext⟩)
    exact ⟨text, hcited, _, hmem, by rw [Report.contentId?, htext]; rfl, rfl, rfl, rfl⟩
  case noBlock =>
    intro r _ hr
    have hnone : r.finding.text? = none := by
      rw [← Option.not_isSome_iff_eq_none, r.finding.isSome_text?_iff]
      exact hr
    rw [Report.contentId?, hnone]
    rfl
  case shared =>
    intro r hr r' hr' hsuccess hsuccess'
    obtain ⟨text, hcited, htext⟩ := hsound.text?_of_success hr hsuccess
    obtain ⟨text', hcited', htext'⟩ := hsound.text?_of_success hr' hsuccess'
    rw [Report.contentId?, Report.contentId?, htext, htext', hcited, hcited']
    simp only [Option.map_some, Option.some.injEq, Except.ok.injEq]
    constructor
    · exact hids text (Extraction.mem_texts.2 ⟨r, hr, htext⟩) text'
        (Extraction.mem_texts.2 ⟨r', hr', htext'⟩)
    · exact congrArg contentId
  case named =>
    intro b hb
    obtain ⟨text, htext, rfl⟩ := mem_collect hb
    obtain ⟨r, hr, hrtext⟩ := Extraction.mem_texts.1 htext
    refine ⟨r, hr, (r.finding.isSome_text?_iff).1 (by rw [hrtext]; rfl), ?_⟩
    rw [Report.contentId?, hrtext]
    rfl

/-- Two documents that share a section. -/
def shelf : FileTree where
  cwd := []
  nodes :=
    [(["a.md"], .file "# One\nsame\n\n# Two\nother\n".toUTF8.data.toList),
      (["b.md"], .file "# One\nsame\n".toUTF8.data.toList)]

/-- A link to a document of the shelf, if it names one. -/
def shelfLink (name anchor : Option String) (verdict : Option Verdict) : Link where
  kind := .markdown
  anchorKind := anchorKindOf anchor
  source := "/notes.md"
  target := ⟨name.map fun p => ⟨p, "/" ++ p, p⟩, anchor⟩
  text := none
  fullMatch := ""
  line := 1
  column := 0
  marker := none
  verdict := verdict

/-- Links of all kinds: to a section, within the document, to a whole file, to no file, to the same
section elsewhere, to another section, and one that was not checked. -/
def shelfLinks : List Link :=
  [shelfLink (some "a.md") (some "One") (some (.valid (some "/a.md"))),
    shelfLink none (some "One") (some (.valid none)),
    shelfLink (some "a.md") none (some (.valid (some "/a.md"))),
    shelfLink (some "c.md") (some "One") (some (.valid none)),
    shelfLink (some "b.md") (some "One") (some (.warning "" ⟨"", ""⟩ "/b.md" none)),
    shelfLink (some "a.md") (some "Two") (some (.valid none)),
    shelfLink (some "a.md") (some "One") none]

/-- A session that has read nothing of the shelf. -/
def shelfSession : Session := .start shelf .standard ⟨.finite false 0, 5⟩ none

/-- Three texts are found on the shelf, two of them equal. -/
theorem extract_accounts_shelf :
    let e := (shelfSession.run shelf (extract Eligibility.defaultRules false shelfLinks)).2
    e.texts = ["# One\nsame", "# One\nsame", "# Two\nother"] ∧
      e.reports.map (·.finding.status) =
        [.success, .skipped, .error, .success, .success, .skipped] ∧
      e.Accounts Eligibility.defaultRules false shelfLinks (shelfSession.cited shelf) := by
  have htexts :
      (shelfSession.run shelf (extract Eligibility.defaultRules false shelfLinks)).2.texts =
        ["# One\nsame", "# One\nsame", "# Two\nother"] := by decide +kernel
  have hne : contentId "# One\nsame" ≠ contentId "# Two\nother" := by decide +kernel
  have hs : shelfSession.Reachable := .start ..
  refine ⟨htexts, by decide +kernel, (extract_accounts hs shelf _ false shelfLinks ?_).1⟩
  rw [htexts]
  simp [hne, hne.symm]

end Session

end Citations

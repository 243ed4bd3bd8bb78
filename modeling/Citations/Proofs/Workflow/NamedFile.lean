/-
**Extracting a file that is named.**

A file that the user names is extracted by way of a link to its absolute path.  The path of a link
is read with its percent escapes decoded first, and that is done here, too: the file that is
extracted is the one at the decoded path if there is one, and the one that was named only if there
is none.

Main definitions:

* `Citations.Extraction.YieldsOnly` — a single report, of success, and a single text;
* `Citations.Workflow.namedFile`, `Citations.Workflow.extractedFile` — the file that is named, and
  the one that is extracted.

Main results:

* `Citations.Resolution.literal?_of_isAbsolute` — where an absolute path leads;
* `Citations.Workflow.extractFile_eq` — what comes of extracting a file, in full;
* `Citations.Workflow.extractFile_yields` — **the file that is named is extracted**, unless its path
  can be decoded to that of another file;
* `Citations.Workflow.not_extractFile_yields` — that condition cannot be left out.
-/

import Citations.Proofs.Checking.Conversion
import Citations.Proofs.Extraction.Blocks
import Citations.Proofs.FileTree.WorkingDirectory
import Citations.Proofs.Text.Percent
import Citations.Workflow

set_option relaxedAutoImplicit false
set_option autoImplicit false

namespace Citations

open Text

/-! ### Absolute paths in links -/

/-- A path that starts at the root still does so once it is decoded. -/
theorem Path.isAbsolute_decode {p : String} (h : Path.isAbsolute p = true) :
    Path.isAbsolute (decode p) = true := by
  unfold Path.isAbsolute at h ⊢
  cases hp : p.toList with
  | nil => simp [hp] at h
  | cons c cs =>
      obtain rfl : c = '/' := by simpa [hp] using h
      rw [decode, String.toList_ofList, hp, head?_percentDecode (by decide) (by decide)]
      rfl

/-- **Where an absolute path leads**: to the file at the decoded path, or else to the one at the
path as it is written. -/
theorem Resolution.literal?_of_isAbsolute {raw : String} (h : Path.isAbsolute raw = true)
    (t : FileTree) (source : String) : Resolution.literal? t raw source =
      [Path.normalize (decode raw), Path.normalize raw].find? t.isFile := by
  have hbesides {p : String} (hp : Path.isAbsolute p = true) :
      Resolution.besides source p = Path.normalize p := by
    rw [Resolution.besides, Path.join_of_isAbsolute _ hp]
  have hraw := hbesides h
  have hdecoded := hbesides (Path.isAbsolute_decode h)
  unfold Resolution.literal? Resolution.readings
  by_cases hsame : decode raw = raw
  · rw [hsame, List.eraseDups_cons]
    simp only [List.filter_cons, BEq.rfl, Bool.not_true, Bool.false_eq_true, if_false,
      List.filter_nil, List.eraseDups_nil, List.map_cons, List.map_nil, hraw]
    rw [List.find?_cons, List.find?_cons, List.find?_cons]
    cases t.isFile (Path.normalize raw) <;> rfl
  · rw [List.eraseDups_cons]
    have hne : (raw == decode raw) = false := by simpa using Ne.symm hsame
    simp [hne, List.eraseDups_cons, hraw, hdecoded]

/-! ### Extracting one file -/

/-- What comes of extracting a whole file: its text, if it can be read. -/
def Finding.ofFile (t : FileTree) (path : String) : Finding :=
  .ofText .fullFiles ((t.readText path).mapError .unreadable)

/-- **A single report, of success, and a single text**, which is the one that the report is
about. -/
structure Extraction.YieldsOnly (e : Extraction) (text : String) : Prop where
  report : ∃ r, e.reports = [r] ∧ r.finding.status = .success ∧ r.contentId? = some (contentId text)
  block : e.blocks = [⟨contentId text, text⟩]

/-- What is extracted from a file is its text and nothing else. -/
theorem Extraction.yieldsOnly_ofFile {t : FileTree} {path text : String} {l : Link} :
    Extraction.YieldsOnly ⟨[⟨l, .ofFile t path⟩]⟩ text ↔ t.readText path = .ok text := by
  constructor
  · rintro ⟨⟨r, hr, hstatus, -⟩, hblock⟩
    obtain rfl : (⟨l, .ofFile t path⟩ : Report) = r := List.singleton_inj.1 hr
    cases htext : t.readText path with
    | error x =>
        simp only [Finding.ofFile, htext] at hstatus
        cases hstatus
    | ok other =>
        have hblocks : Extraction.blocks ⟨[⟨l, .ofFile t path⟩]⟩ =
            [⟨contentId other, other⟩] := by
          simp only [Finding.ofFile, htext]
          rfl
        rw [hblocks] at hblock
        injection List.singleton_inj.1 hblock with _ hcontent
        rw [hcontent]
  · intro htext
    simp only [Finding.ofFile, htext]
    exact ⟨⟨_, rfl, rfl, rfl⟩, rfl⟩

/-- An extraction from a single link to another document. -/
theorem Session.Sound.run_extract_singleton {s : Session} (hs : s.Sound) {t : FileTree}
    {rules : List Eligibility.Rule} {fullFiles : Bool} {l : Link}
    (hl : l.scope = .crossDocument) :
    (s.run t (extract rules fullFiles [l])).2 =
      ⟨[⟨l, (s.run t (l.finding rules fullFiles)).2⟩]⟩ := by
  have hreports := hs.run_extract t rules fullFiles [l]
  rw [List.filter_cons_of_pos (by simpa using hl)] at hreports
  exact congrArg Extraction.mk hreports

namespace Workflow

variable {t : FileTree} {settings : Settings} {scope : Option String} {s : Session}
  {path text : String}

/-- The file that the user names by a path. -/
def namedFile (t : FileTree) (path : String) : String := Path.normalize (Path.join t.cwdPath path)

/-- The file that its path stands for once it is decoded. -/
def decodedFile (t : FileTree) (path : String) : String :=
  Path.normalize (decode (namedFile t path))

/-- **The file that is extracted.** -/
def extractedFile (t : FileTree) (path : String) : String :=
  if t.isFile (decodedFile t path) then decodedFile t path else namedFile t path

theorem isAbsolute_namedFile (t : FileTree) (path : String) :
    Path.isAbsolute (namedFile t path) = true := by
  rw [namedFile, Path.isAbsolute_normalize]
  exact Path.isAbsolute_join (FileTree.isAbsolute_pathTo t.cwd) path

/-- The path of the file that is extracted is a normal form. -/
theorem absolute_extractedFile (t : FileTree) (path : String) :
    Path.absolute t.cwdPath (extractedFile t path) = extractedFile t path := by
  have hnamed := isAbsolute_namedFile t path
  unfold extractedFile
  split
  · have hdecoded : Path.isAbsolute (decodedFile t path) = true := by
      rw [decodedFile, Path.isAbsolute_normalize, Path.isAbsolute_decode hnamed]
    rw [Path.absolute_of_isAbsolute _ hdecoded]
    exact Path.normalize_normalize _
  · rw [Path.absolute_of_isAbsolute _ hnamed]
    exact Path.normalize_normalize _

theorem extractedFile_ne_empty (t : FileTree) (path : String) : extractedFile t path ≠ "" := by
  unfold extractedFile
  split
  · exact Path.normalize_ne_empty _
  · exact Path.normalize_ne_empty _

/-- The path of the file that is named leads to the one that is extracted. -/
theorem literal?_namedFile (hfile : t.isFile (namedFile t path) = true) (source : String) :
    Resolution.literal? t (namedFile t path) source = some (extractedFile t path) := by
  have hnormal : Path.normalize (namedFile t path) = namedFile t path :=
    Path.normalize_normalize _
  rw [Resolution.literal?_of_isAbsolute (isAbsolute_namedFile t path), hnormal, ← decodedFile,
    extractedFile]
  split
  · rename_i hdecoded
    rw [List.find?_cons_of_pos hdecoded]
  · rename_i hdecoded
    rw [List.find?_cons_of_neg hdecoded, List.find?_cons_of_pos hfile]

/-- The link to a file that is named. -/
theorem exists_toFile (hblank : allBlank path.toList = false) :
    ∃ l target, Link.toFile t.cwdPath t.cwdPath path = .ok l ∧ l.target = ⟨some target, none⟩ ∧
      target.raw = namedFile t path ∧ l.anchorKind = none ∧ l.marker = none := by
  have htarget : Link.directTarget t.cwdPath t.cwdPath path =
      .ok ⟨namedFile t path, namedFile t path,
        Path.relative t.cwdPath (namedFile t path) t.cwdPath⟩ :=
    if_neg (by simp [hblank])
  rw [Link.toFile, htarget]
  exact ⟨_, _, rfl, rfl, rfl, rfl, rfl⟩

/-- A link to a whole file that was found in order gives the text of the file. -/
theorem run_finding_of_wholeFile {u : Session} (hu : u.Steady t) {l : Link} {found : String}
    (hfound : Path.absolute t.cwdPath found = found) (hne : found ≠ "")
    (hkind : l.anchorKind = none) (hmarker : l.marker = none)
    (hverdict : l.verdict = some (.valid (some found))) :
    (u.run t (l.finding Eligibility.defaultRules true)).2 = .ofFile t found := by
  have hruling : Eligibility.decide Eligibility.defaultRules true l = .fullFiles := by
    simp [Eligibility.decide, Eligibility.defaultRules, Eligibility.Rule.ruling?, hkind, hmarker]
  have hfollowed : l.isFollowed Eligibility.defaultRules true = true := by
    simp [Link.isFollowed, hverdict, hruling, Verdict.problem?, Eligibility.Ruling.eligible]
  have hpath : l.contentPath = found := by
    simp only [Link.contentPath, hverdict, Option.bind_some, Verdict.resolved?]
  have hcited : u.cited t l = (t.readText found).mapError .unreadable := by
    rw [Session.cited_eq, hpath, hu.document_snd, hfound, Session.load]
    cases t.readText found with
    | error x => rfl
    | ok text => exact Link.textOf_of_passage? (by simp [Link.passage?, hkind, Document.parse])
  rcases Session.run_finding t u Eligibility.defaultRules true l with ⟨-, h⟩ | ⟨hnot, -⟩
  · rw [h, hruling, hcited, Finding.ofFile]
  · rw [hfollowed] at hnot
    cases hnot

/-- An extraction from a link to a whole file that was found in order. -/
theorem run_extract_of_wholeFile {u : Session} (hu : u.Steady t) {l : Link} {target : TargetPath}
    {found : String} (hpath : l.target.path = some target)
    (hfound : Path.absolute t.cwdPath found = found) (hne : found ≠ "")
    (hkind : l.anchorKind = none) (hmarker : l.marker = none) :
    (u.run t (extract Eligibility.defaultRules true
      [{ l with verdict := some (.valid (some found)) }])).2 =
        ⟨[⟨{ l with verdict := some (.valid (some found)) }, .ofFile t found⟩]⟩ := by
  have hscope : Link.scope { l with verdict := some (.valid (some found)) } = .crossDocument := by
    simp [Link.scope, hpath]
  have hfinding : (u.run t (Link.finding Eligibility.defaultRules true
      { l with verdict := some (.valid (some found)) })).2 = .ofFile t found :=
    run_finding_of_wholeFile hu hfound hne hkind hmarker rfl
  rw [hu.sound.run_extract_singleton hscope, hfinding]

/-- **What comes of extracting a file**: a single report, on the file that is extracted. -/
theorem extractFile_eq (hsession : session t settings scope = .ok s)
    (hblank : allBlank path.toList = false) (hfile : t.isFile (namedFile t path) = true) :
    ∃ l, extractFile t settings scope path =
      .ok ⟨[⟨l, .ofFile t (extractedFile t path)⟩]⟩ := by
  have hsteady : s.Steady t := by
    obtain ⟨dialect, chosen, -, hlisted, rfl⟩ := exists_of_session hsession
    exact Session.steady_start (Session.hasScopeRoot_start_of_listed hlisted _ _)
  obtain ⟨l, target, hl, htarget, hraw, hkind, hmarker⟩ := exists_toFile hblank
  have hpath : l.target.path = some target := by rw [htarget]
  have hchecked : (s.run t (Checking.check t s.policy l.source l)).2 =
      .ok (.valid (some (extractedFile t path))) := by
    refine Session.run_check_of_literal? hpath ?_ fun a ha => ?_
    · rw [hraw, literal?_namedFile hfile]
    · rw [htarget] at ha
      cases ha
  have hu := hsteady.run (Checking.check t s.policy l.source l)
  -- the link comes with the verdict that the file was found
  have hextracted := run_extract_of_wholeFile hu hpath (absolute_extractedFile t path)
    (extractedFile_ne_empty t path) hkind hmarker
  refine ⟨{ l with verdict := some (.valid (some (extractedFile t path))) }, ?_⟩
  have hpair : s.run t (Checking.check t s.policy l.source l) =
      ((s.run t (Checking.check t s.policy l.source l)).1,
        .ok (.valid (some (extractedFile t path)))) := Prod.ext rfl hchecked
  simp only [extractFile, hsession, bind, Except.bind, followDirect, hl]
  rw [hpair]
  exact congrArg Except.ok hextracted

/-- **The file that is named is extracted**: there is one report, of success, and one text, which is
that of the file, if there is no file at the decoded path, or one with the same text.  In any case
it is the file at the decoded path that is extracted, if there is one; so nothing can go wrong where
the path of the file holds no percent sign. -/
theorem extractFile_yields (hsession : session t settings scope = .ok s)
    (hblank : allBlank path.toList = false) (htext : t.readText (namedFile t path) = .ok text) :
    ∃ e, extractFile t settings scope path = .ok e ∧ e.reports.length = 1 ∧
      (∀ other, e.YieldsOnly other ↔ t.readText (extractedFile t path) = .ok other) ∧
      (e.YieldsOnly text ↔
        t.isFile (decodedFile t path) = false ∨ t.readText (decodedFile t path) = .ok text) ∧
      ('%' ∉ (namedFile t path).toList → e.YieldsOnly text) := by
  have hfile : t.isFile (namedFile t path) = true :=
    FileTree.isFile_of_readText (Path.tidy_normalize _) htext
  obtain ⟨l, he⟩ := extractFile_eq hsession hblank hfile
  refine ⟨_, he, rfl, fun other => Extraction.yieldsOnly_ofFile, ?_, fun hpercent => ?_⟩
  · rw [Extraction.yieldsOnly_ofFile, extractedFile]
    cases hdecoded : t.isFile (decodedFile t path) with
    | true => simp
    | false => simp [htext]
  · have hsame : decodedFile t path = namedFile t path := by
      rw [decodedFile, decode_eq_self hpercent]
      exact Path.normalize_normalize _
    rw [Extraction.yieldsOnly_ofFile, extractedFile, hsame, ite_self, htext]

/-- A file with a percent sign in its name, and others. -/
def percentNamed (others : List (Place × FileNode)) : FileTree where
  cwd := []
  nodes := (["a%41.md"], .file "# raw\n".toUTF8.toList) :: others

/-- The file is extracted if it is the only one. -/
theorem extractFile_yields_percentNamed :
    ∃ e, extractFile (percentNamed []) {} none "a%41.md" = .ok e ∧ e.YieldsOnly "# raw\n" := by
  have htext : (percentNamed []).readText (namedFile (percentNamed []) "a%41.md") =
      .ok "# raw\n" := by decide +kernel
  obtain ⟨e, he, -, -, hyields, -⟩ :=
    extractFile_yields (session_default (percentNamed [])) (by decide +kernel) htext
  exact ⟨e, he, hyields.2 (.inl (by decide +kernel))⟩

/-- The file beside one that has its name when it is decoded. -/
def percentPair : FileTree := percentNamed [(["aA.md"], .file "# decoded\n".toUTF8.toList)]

theorem isRooted_percentPair : percentPair.IsRooted where
  cwd := FileTree.isPlace_nil
  short := by decide
  directory := by decide
  parents := by decide

/-- **The file that is named is not always the one that is extracted**: beside `aA.md`, it is that
file. -/
theorem not_extractFile_yields :
    ¬ ∀ (t : FileTree) (settings : Settings) (scope : Option String) (s : Session)
      (path text : String), t.IsRooted → session t settings scope = .ok s →
        allBlank path.toList = false → t.readText (namedFile t path) = .ok text →
          ∃ e, extractFile t settings scope path = .ok e ∧ e.YieldsOnly text := by
  intro h
  obtain ⟨e, he, hyields⟩ := h percentPair {} none _ "a%41.md" "# raw\n" isRooted_percentPair
    (session_default percentPair) (by decide +kernel) (by decide +kernel)
  obtain ⟨l, hl⟩ := extractFile_eq (session_default percentPair)
    (show allBlank "a%41.md".toList = false by decide +kernel) (by decide +kernel)
  obtain rfl : e = ⟨[⟨l, .ofFile percentPair (extractedFile percentPair "a%41.md")⟩]⟩ :=
    Except.ok.inj (he.symm.trans hl)
  have hother : percentPair.readText (extractedFile percentPair "a%41.md") =
      .ok "# decoded\n" := by decide +kernel
  rw [Extraction.yieldsOnly_ofFile, hother] at hyields
  revert hyields
  decide

end Workflow

end Citations

/-
**What a path leads to directly is there.**

A path that is read relative to the document, or to its real place, is brought into normal form
first and looked up then, so that what is found is a file.  A path that is read from a directory
above the document is looked up as it is written, and its normal form is given only afterwards: if
`..` comes behind a link, that may be the path of another file, or of none.  Nowhere else can a link
be found in order at a path that leads to no file.

Main results:

* `Citations.Resolution.isFile_of_linked?`, `Citations.Resolution.isFile_or_isMisread_of_vault?` —
  what is found in either way is a file, or misread;
* `Citations.Session.direct?_of_valid` — a session without a scope finds a link in order only where
  its path leads directly;
* `Citations.Session.found_isFile` — **what is found is a file**, unless `..` comes behind a link;
* `Citations.Session.not_found_isFile` — that condition cannot be left out.
-/

import Citations.Proofs.Checking.Run
import Citations.Proofs.FileTree.Following

set_option relaxedAutoImplicit false
set_option autoImplicit false

namespace Citations

open Text

namespace Resolution

variable {t : FileTree} {raw source path : String}

theorem isFile_of_linked? (h : linked? t raw source = .ok (some path)) :
    t.isFile path = true := by
  obtain ⟨real, -, hfound⟩ := Except.map_eq_ok_iff.1 h
  split at hfound
  · cases hfound
  · exact isFile_of_literal? hfound

/-- Whether a path is the normal form of one to a file that climbs from behind a link, read from a
directory above the document. -/
def IsMisread (t : FileTree) (raw source path : String) : Prop :=
  ∃ dir ∈ chain (Path.directory source),
    t.climbsBehindLink (Path.join dir (decode raw)) = true ∧
      t.isFile (Path.join dir (decode raw)) = true ∧
        path = Path.normalize (Path.join dir (decode raw))

/-- What is found from a directory above the document is the normal form of a path to a file. -/
theorem exists_of_vault? (h : vault? t raw source = some path) :
    ∃ dir ∈ chain (Path.directory source), t.isFile (Path.join dir (decode raw)) = true ∧
      path = Path.normalize (Path.join dir (decode raw)) := by
  unfold vault? at h
  dsimp only at h
  split at h
  · obtain ⟨file, hfile, rfl⟩ := Option.map_eq_some_iff.1 h
    have hmem := List.mem_of_find?_eq_some hfile
    rw [List.mem_map] at hmem
    obtain ⟨dir, hdir, hjoin⟩ := hmem
    rw [← hjoin] at hfile ⊢
    exact ⟨dir, hdir, List.find?_some hfile, rfl⟩
  · cases h

/-- What is found from a directory above the document is a file, if it is not misread. -/
theorem isFile_or_isMisread_of_vault? (h : vault? t raw source = some path) :
    t.isFile path = true ∨ IsMisread t raw source path := by
  obtain ⟨dir, hdir, hfile, hpath⟩ := exists_of_vault? h
  cases hclimb : t.climbsBehindLink (Path.join dir (decode raw)) with
  | false =>
      rw [hpath]
      exact .inl (FileTree.isFile_normalize hclimb hfile)
  | true => exact .inr ⟨dir, hdir, hclimb, hfile, hpath⟩

theorem isFile_or_isMisread_of_direct? (h : direct? t raw source = .ok (some path)) :
    t.isFile path = true ∨ IsMisread t raw source path := by
  rcases eq_of_direct? h with hliteral | hlinked | hvault
  · exact .inl (isFile_of_literal? hliteral)
  · exact .inl (isFile_of_linked? hlinked)
  · exact isFile_or_isMisread_of_vault? hvault

end Resolution

namespace Session

variable {s : Session} {t : FileTree} {raw source path : String} {policy : SuggestionPolicy}

/-- A session without a scope finds a link in order only where its path leads directly. -/
theorem direct?_of_valid {l : Link} {target : TargetPath} (hs : s.finder = none)
    (hl : l.target.path = some target)
    (h : (s.run t (Checking.check t policy source l)).2 = .ok (.valid (some path))) :
    Resolution.direct? t target.raw source = .ok (some path) := by
  have hverdict : (s.run t (Checking.acrossDocuments t policy target.raw l.target.anchor
      source)).2 = .ok (.valid (some path)) := by
    rw [run_check_eq hl] at h
    exact Except.mapError_eq_ok_iff.1 h
  obtain ⟨destination, htarget, hrun⟩ := exists_of_run_acrossDocuments hverdict
  rw [hrun] at hverdict
  cases hdirect : Resolution.direct? t target.raw source with
  | error e =>
      rw [Checking.target, hdirect] at htarget
      cases htarget
  | ok found =>
      cases found with
      | some file =>
          rw [run_target_of_direct hdirect] at htarget hverdict
          cases htarget
          rw [run_verdictAt_found] at hverdict
          have hv := (eq_and_anchored_of_run_withAnchor (Except.ok.inj hverdict) rfl).1
          rw [Option.some.inj (Verdict.valid.inj hv)]
      | none =>
          -- nobody looks for the name, so that nothing is found
          have hfind : s.find t (Path.fileName (decode target.raw)) = (s, .ok none) := by
            rw [find, hs]
          rw [run_target_of_not_direct hdirect, hfind] at htarget hverdict
          cases htarget
          obtain ⟨trace, -, hmissing⟩ := Except.map_eq_ok_iff.1 hverdict
          cases hmissing

/-- **What is found is a file**: always if it is found relative to the document or to its real
place, and else if it is not misread, which takes a `..` behind a link.  So no link is found in
order at a path that leads to no file, as long as no file is looked for by name and nothing is
misread. -/
theorem found_isFile {t : FileTree} {raw source path : String} :
    (Resolution.literal? t raw source = some path ∨
        Resolution.linked? t raw source = .ok (some path) →
      t.isFile path = true) ∧
    (Resolution.vault? t raw source = some path →
      t.isFile path = true ∨ Resolution.IsMisread t raw source path) ∧
    ∀ (s : Session) (policy : SuggestionPolicy) (l : Link) (target : TargetPath),
      s.finder = none → l.target.path = some target → target.raw = raw →
        (s.run t (Checking.check t policy source l)).2 = .ok (.valid (some path)) →
          t.isFile path = true ∨ Resolution.IsMisread t raw source path := by
  refine ⟨fun h => ?_, Resolution.isFile_or_isMisread_of_vault?, ?_⟩
  · rcases h with h | h
    · exact Resolution.isFile_of_literal? h
    · exact Resolution.isFile_of_linked? h
  · rintro s policy l target hs hl rfl h
    exact Resolution.isFile_or_isMisread_of_direct? (direct?_of_valid hs hl h)

/-- A vault in which a link in the directory `sub` leads to the directory `deep` inside `other`. -/
def linkedVault : FileTree where
  cwd := []
  nodes := [(["v"], .directory), (["v", "other"], .directory),
    (["v", "other", "deep"], .directory), (["v", "other", "x.md"], .file []),
    (["v", "sub"], .directory), (["v", "sub", "b.md"], .file []),
    (["v", "sub", "link"], .link "../other/deep"), (["v", "sub", "s.md"], .file [])]

/-- A link of the document `s.md` in the vault. -/
def linkTo (raw : String) : Link where
  kind := .markdown
  anchorKind := none
  source := "/v/sub/s.md"
  target := ⟨some ⟨raw, raw, raw⟩, none⟩
  text := none
  fullMatch := ""
  line := 1
  column := 0
  marker := none
  verdict := none

/-- A session in the vault that looks for no file by name. -/
def vaultSession : Session := start linkedVault .standard ⟨.finite false 0, 5⟩ none

/-- A path that starts at the root of the vault leads to a file. -/
theorem found_isFile_vault :
    Resolution.vault? linkedVault "sub/b.md" "/v/sub/s.md" = some "/v/sub/b.md" ∧
    (vaultSession.run linkedVault
      (Checking.check linkedVault vaultSession.policy "/v/sub/s.md" (linkTo "sub/b.md"))).2 =
        .ok (.valid (some "/v/sub/b.md")) ∧
    (linkedVault.isFile "/v/sub/b.md" = true ∨
      Resolution.IsMisread linkedVault "sub/b.md" "/v/sub/s.md" "/v/sub/b.md") :=
  have hvalid : (vaultSession.run linkedVault
      (Checking.check linkedVault vaultSession.policy "/v/sub/s.md" (linkTo "sub/b.md"))).2 =
        .ok (.valid (some "/v/sub/b.md")) := by decide +kernel
  ⟨by decide +kernel, hvalid,
    found_isFile.2.2 vaultSession vaultSession.policy (linkTo "sub/b.md") _ rfl rfl rfl hvalid⟩

/-- **Something can be found that is no file**: where `..` comes behind a link, a link can be found
in order at a path that leads to nothing. -/
theorem not_found_isFile :
    ¬ ∀ (t : FileTree) (raw source path : String),
      (Resolution.vault? t raw source = some path → t.isFile path = true) ∧
      ∀ (s : Session) (policy : SuggestionPolicy) (l : Link) (target : TargetPath),
        s.finder = none → l.target.path = some target → target.raw = raw →
          (s.run t (Checking.check t policy source l)).2 = .ok (.valid (some path)) →
            t.isFile path = true := by
  intro h
  have hvalid : (vaultSession.run linkedVault
      (Checking.check linkedVault vaultSession.policy "/v/sub/s.md" (linkTo "link/../x.md"))).2 =
        .ok (.valid (some "/v/sub/x.md")) := by decide +kernel
  have hfile : linkedVault.isFile "/v/sub/x.md" = false := by decide +kernel
  have hfound := (h linkedVault "link/../x.md" "/v/sub/s.md" "/v/sub/x.md").2 vaultSession
    vaultSession.policy (linkTo "link/../x.md") _ rfl rfl rfl hvalid
  rw [hfile] at hfound
  cases hfound

end Session

end Citations

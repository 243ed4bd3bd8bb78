/-
**Following a recommended path.**

A link whose file is found in another directory comes with the way from its document to that file.
In a tree without links, reading that way from the document leads to the very file that was found;
so the link is in order once it is written like that.

Main results:

* `Citations.FileTree.IsPlain.exists_of_mem_ofScope` — the files of a scope are at places of the
  tree;
* `Citations.FileTree.IsPlain.recommended_conversion` — what is recommended is the way from the
  document to the file;
* `Citations.Session.Steady.exists_of_warning` — a warning comes of a file of the scope;
* `Citations.Session.valid_of_converted` — **a link that is written as it was recommended is in
  order**;
* `Citations.Session.not_valid_of_converted` — not so where the scope starts with two slashes.
-/

import Citations.Proofs.Checking.Enrichment
import Citations.Proofs.FileIndex.Listing
import Citations.Proofs.FileTree.Way
import Citations.Proofs.Session.Steady

set_option relaxedAutoImplicit false
set_option autoImplicit false

namespace Citations

open Text

namespace FileTree

open Citations.Path (way joinSegments)

variable {t : FileTree} {p q : Place} {scope : String}

/-! ### The files of a scope -/

/-- The files of a scope are at places of the tree. -/
theorem IsPlain.exists_of_mem_ofScope (ht : t.IsPlain) (hscope : Path.root scope ≠ "//")
    {file : IndexedFile} (h : file ∈ (FileIndex.ofScope t scope).files) :
    ∃ n ∈ t.nodes, file.path = pathTo n.1 ∧ t.isFile (pathTo n.1) = true := by
  obtain ⟨p, hp, hgiven⟩ := exists_absolute_eq ht.cwd hscope
  rw [FileIndex.files_ofScope] at h
  obtain ⟨names, hnames, rfl⟩ := List.mem_map.1 h
  obtain ⟨root, hroot, hbelow⟩ := FileIndex.exists_of_mem_visited hnames
  obtain rfl : root = p := by
    rw [FileIndex.scopePlace, FileIndex.givenScope, hgiven] at hroot
    rw [ht.eq_of_realPlace (isAbsolute_pathTo p) hroot, cleaned_pathTo hp]
  obtain ⟨hentry, hfile⟩ := FileIndex.of_mem_filesBelow hbelow
  obtain ⟨hne, ⟨n, hn, hplace⟩, -⟩ := FileIndex.mem_entriesBelow_iff.1 hentry
  refine ⟨n, hn, ?_, hplace ▸ hfile⟩
  have hrelative := isAbsolute_joinSegments (ht.isNamed.isPlace_of_mem_filesBelow hbelow)
  rw [hplace, FileIndex.pathIn, FileIndex.givenScope, hgiven, join_pathTo hp hrelative,
    pathTo_joinSegments root hne]

/-- What is recommended is the way from the document to the file. -/
theorem IsPlain.recommended_conversion (ht : t.IsPlain) (hp : IsPlace p) (hq : IsPlace q)
    {raw : String} {anchor : Option String} {mended : PathConversion}
    (h : Checking.conversion t raw anchor (pathTo p) (pathTo q) = .ok mended) :
    mended.recommended = way p.dropLast q ++ Checking.anchorSuffix anchor := by
  have hdir := hp.dropLast
  have hname := Path.slash_notMem_fileName (pathTo p)
  have hrelative : Path.isAbsolute (Path.fileName (pathTo p)) = false :=
    Path.isAbsolute_of_slash_notMem hname
  have hnames {r : Place} (hr : IsPlace r) :
      Path.names (Path.absolute t.cwdPath (pathTo r)) = r := by
    rw [Path.absolute, if_pos (isAbsolute_pathTo r), normalize_pathTo hr, names_pathTo hr]
  obtain ⟨realDirectory, hrealDirectory, h⟩ := Except.bind_eq_ok_iff.1 h
  obtain ⟨realPath, hrealPath, h⟩ := Except.map_eq_ok_iff.1 h
  obtain rfl := ht.eq_of_realPath_pathTo hdir (directory_pathTo hp ▸ hrealDirectory)
  obtain rfl := ht.eq_of_realPath_pathTo hq hrealPath
  rw [← h]
  simp only [join_pathTo hdir hrelative, Path.relativeToDocument,
    directory_pathTo_concat hdir hname, Path.relative_eq_way, hnames hdir, hnames hq]

end FileTree

/-! ### Where a warning comes from -/

namespace Checking

variable {t : FileTree} {policy : SuggestionPolicy} {raw source resolved problem : String}
  {suggestion : Option String} {conversion : PathConversion}

theorem inDocument_ne_warning (d : Document) (l : Link) :
    inDocument policy d l ≠ .warning problem conversion resolved suggestion := by
  intro h
  unfold inDocument at h
  dsimp only at h
  split at h
  · unfold caretVerdict at h
    split at h <;> cases h
  · split at h <;> cases h

end Checking

namespace Session

variable {s s' : Session} {t : FileTree} {policy : SuggestionPolicy}
  {raw source path resolved problem : String} {anchor suggestion : Option String}
  {conversion : PathConversion} {l : Link} {d : Document}

theorem of_run_verdictAt_eq_warning {destination : Checking.Destination}
    (h : (s.run t (Checking.verdictAt t policy raw anchor source destination)).2 =
      .ok (.warning problem conversion resolved suggestion)) :
    (∃ message, destination = .elsewhere resolved message) ∧
      Checking.conversion t raw anchor source resolved = .ok conversion ∧
      s.Anchored t resolved anchor := by
  cases destination with
  | found path =>
      rw [run_verdictAt_found] at h
      cases (eq_and_anchored_of_run_withAnchor (Except.ok.inj h) rfl).1
  | missing message =>
      obtain ⟨trace, -, h⟩ := Except.map_eq_ok_iff.1 h
      cases h
  | elsewhere path message =>
      cases hmended : Checking.conversion t raw anchor source path with
      | error e =>
          simp only [Checking.verdictAt, hmended] at h
          cases h
      | ok mended =>
          rw [run_verdictAt_elsewhere hmended] at h
          obtain ⟨hwarning, hanchored⟩ := eq_and_anchored_of_run_withAnchor (Except.ok.inj h) rfl
          cases hwarning
          exact ⟨⟨_, rfl⟩, hmended, hanchored⟩

/-- While the files stay as they are, what is found elsewhere is a file of the scope. -/
theorem Steady.exists_of_target_eq_elsewhere (hs : s.Steady t) {message : Option String}
    (h : (s.run t (Checking.target t raw source)).2 = .ok (.elsewhere resolved message)) :
    (s.run t (Checking.target t raw source)).1 = s ∧ ∃ f, s.finder = some f ∧
      ∃ file ∈ (FileIndex.ofScope t f.scope).files, file.path = resolved := by
  cases hdirect : Resolution.direct? t raw source with
  | error e =>
      rw [Checking.target, hdirect] at h
      cases h
  | ok found =>
      cases found with
      | some file =>
          rw [run_target_of_direct hdirect] at h
          cases h
      | none =>
          rw [run_target_of_not_direct hdirect, hs.find_fst] at h ⊢
          obtain ⟨named, hnamed, hdestination⟩ := Except.bind_eq_ok_iff.1 h
          obtain ⟨r, rfl, hpath⟩ := Checking.exists_of_byName_eq_elsewhere hdestination
          refine ⟨rfl, ?_⟩
          cases hf : s.finder with
          | none =>
              rw [find, hf] at hnamed
              cases hnamed
          | some f =>
              rw [hs.find_snd hf] at hnamed
              cases hnamed
              exact ⟨f, rfl, FileIndex.path?_lookUp hpath⟩

/-- While the files stay as they are, a warning comes of a file of the scope that has the anchor of
the link. -/
theorem Steady.exists_of_warning (hs : s.Steady t)
    (h : (s.run t (Checking.checkOf t policy d l)).2 =
      .ok (.warning problem conversion resolved suggestion)) :
    ∃ target f, l.target.path = some target ∧ s.finder = some f ∧
      (∃ file ∈ (FileIndex.ofScope t f.scope).files, file.path = resolved) ∧
      Checking.conversion t target.raw l.target.anchor l.source resolved = .ok conversion ∧
      s.Anchored t resolved l.target.anchor := by
  unfold Checking.checkOf at h
  cases hl : l.target.path with
  | none =>
      rw [hl] at h
      exact absurd (Except.ok.inj h) (Checking.inDocument_ne_warning d l)
  | some target =>
      rw [hl] at h
      obtain ⟨destination, htarget, hrun⟩ := exists_of_run_acrossDocuments h
      dsimp only at h
      rw [hrun] at h
      obtain ⟨⟨message, rfl⟩, hconversion, hanchored⟩ := of_run_verdictAt_eq_warning h
      obtain ⟨hsame, f, hf, hfile⟩ := hs.exists_of_target_eq_elsewhere htarget
      rw [hsame] at hanchored
      exact ⟨target, f, rfl, hf, hfile, hconversion, hanchored⟩

/-- Sessions of one dialect give the same documents, while the files stay as they are. -/
theorem Steady.anchored (hs : s.Steady t) (hs' : s'.Steady t) (hdialect : s'.dialect = s.dialect)
    (h : s.Anchored t path anchor) : s'.Anchored t path anchor := by
  intro a ha hne
  obtain ⟨d, hd, hanchor⟩ := h a ha hne
  refine ⟨d, ?_, hanchor⟩
  rw [hs'.document_snd, load, hdialect, ← load, ← hs.document_snd, hd]

/-- A link is in order if its path leads to a file that has its anchor. -/
theorem run_check_of_literal? {target : TargetPath} (hl : l.target.path = some target)
    (hliteral : Resolution.literal? t target.raw source = some path)
    (hanchored : s.Anchored t path l.target.anchor) :
    (s.run t (Checking.check t policy source l)).2 = .ok (.valid (some path)) := by
  have hdirect := Resolution.direct?_of_literal? hliteral
  rw [run_check_eq hl, run_acrossDocuments_eq, run_target_of_direct hdirect]
  have hverdict : (s.run t (Checking.withAnchor policy l.target.anchor path
      (.valid (some path)) none)).2 = .valid (some path) :=
    run_withAnchor_of_anchored hanchored _ _
  dsimp only
  rw [run_verdictAt_found, hverdict]
  rfl

/-- Loading a document at a key parses it under that key. -/
theorem source_of_mem_links_of_load {key : String} (hd : s.load t key = .ok d) (hl : l ∈ d.links) :
    l.source = key := by
  unfold load at hd
  cases hread : t.readText key with
  | error e =>
      rw [hread] at hd
      cases hd
  | ok content =>
      rw [hread] at hd
      cases hd
      exact Document.source_of_mem_links hl

/-- **A link that is written as it was recommended is in order**: if the files stay as they are, no
link is among them and no name holds a percent sign, then the recommended path leads from the
document to the file that was found, and the link that has it for its path is in order, in any
session of the same dialect.  Neither the document nor the scope may be given by a path that starts
with exactly two slashes. -/
theorem valid_of_converted {ls : List Link} (ht : t.IsPlain)
    (hpercent : ∀ n ∈ t.nodes, ∀ name ∈ n.1, '%' ∉ name.toList) (hs : s.ReachableIn t)
    (hpath : Path.root path ≠ "//") (hscope : ∀ f, s.finder = some f → Path.root f.scope ≠ "//")
    (hls : (s.validate t path).2 = .ok ls) (hl : l ∈ ls)
    (hv : l.verdict = some (.warning problem conversion resolved suggestion)) :
    ∃ recommended,
      conversion.recommended = recommended ++ Checking.anchorSuffix l.target.anchor ∧
      Resolution.literal? t recommended l.source = some resolved ∧
      ∀ (s' : Session) (policy : SuggestionPolicy) (l' : Link) (target : TargetPath),
        s'.ReachableIn t → s'.dialect = s.dialect →
        l'.target = ⟨some { target with raw := recommended }, l.target.anchor⟩ →
          (s'.run t (Checking.check t policy l.source l')).2 = .ok (.valid (some resolved)) := by
  obtain ⟨d, hd, henrich⟩ := exists_document_of_validate hls
  -- what the checks of the single links keep true
  have hinv (s₁ : Session) (l₁ : Link)
      (h : s₁.Steady t ∧ s₁.finder = s.finder ∧ s₁.dialect = s.dialect) :
      (s₁.run t (Checking.checkOf t s.policy d l₁)).1.Steady t ∧
        (s₁.run t (Checking.checkOf t s.policy d l₁)).1.finder = s.finder ∧
          (s₁.run t (Checking.checkOf t s.policy d l₁)).1.dialect = s.dialect :=
    ⟨h.1.run _, (h.1.finder_run _).trans h.2.1, (dialect_run _).trans h.2.2⟩
  obtain ⟨l₀, hl₀, s₁, v, ⟨hs₁, hfinder, hdialect⟩, hchecked, rfl⟩ :=
    exists_run_of_mem_enrich hinv ⟨hs.steady.document path, rfl, rfl⟩ henrich hl
  cases hv
  obtain ⟨target, f, htarget, hf, ⟨file, hfile, rfl⟩, hconversion, hanchored⟩ :=
    hs₁.exists_of_warning hchecked
  rw [hfinder] at hf
  -- the places of the file and of the document, between which the way is read
  obtain ⟨n, hn, hplace, hisFile⟩ := ht.exists_of_mem_ofScope (hscope f hf) hfile
  obtain ⟨p, hp, hsource⟩ := FileTree.exists_absolute_eq ht.cwd hpath
  have hload : s.load t (Path.absolute t.cwdPath path) = .ok d := by
    rw [← hs.steady.document_snd, hd]
  have hl₀source : l₀.source = FileTree.pathTo p :=
    (source_of_mem_links_of_load hload hl₀).trans hsource
  have hliteral : Resolution.literal? t (Path.way p.dropLast n.1) l₀.source = some file.path := by
    rw [hl₀source, hplace]
    exact Resolution.literal?_way hp (ht.places n hn) (hpercent n hn) hisFile
  refine ⟨Path.way p.dropLast n.1, ?_, hliteral, ?_⟩
  · rw [hl₀source, hplace] at hconversion
    rw [hl₀source, hplace]
    exact ht.recommended_conversion hp (ht.places n hn) hconversion
  · intro s' policy l' target' hs' hdialect' hl'
    have hpath' : l'.target.path = some { target' with raw := Path.way p.dropLast n.1 } := by
      rw [hl']
    refine run_check_of_literal? hpath' hliteral ?_
    rw [hl']
    exact hs₁.anchored hs'.steady (hdialect'.trans hdialect.symm) hanchored

/-- A tree in which a link of `s.md` names the wrong directory. -/
def misplaced : FileTree where
  cwd := []
  nodes := [(["s.md"], .file "[x](wrong/t.md#T)\n".toUTF8.toList), (["sub"], .directory),
    (["sub", "t.md"], .file "# T\n".toUTF8.toList)]

/-- A session that has read nothing of this tree. -/
def misplacedSession (scope : String) : Session :=
  start misplaced .standard ⟨.finite false 0, 5⟩ (some scope)

theorem reachableIn_misplacedSession (scope : String)
    (h : (FileIndex.scopeRoot misplaced scope).toOption.isSome = true) :
    (misplacedSession scope).ReachableIn misplaced := by
  cases hroot : FileIndex.scopeRoot misplaced scope with
  | error e =>
      rw [hroot] at h
      cases h
  | ok root => exact .start _ _ _ (hasScopeRoot_start_some hroot _ _)

/-- The warning that the link comes with. -/
def misplacedWarning (resolved : String) : Verdict :=
  .warning (Checking.elsewhereProblem resolved) ⟨"wrong/t.md#T", "sub/t.md#T"⟩ resolved none

theorem isPlain_misplaced : misplaced.IsPlain where
  cwd := FileTree.isPlace_nil
  places := by simp [misplaced, FileTree.IsPlace, Path.IsName]
  noLinks := by simp [misplaced]

theorem percent_notMem_misplaced : ∀ n ∈ misplaced.nodes, ∀ name ∈ n.1, '%' ∉ name.toList := by
  simp [misplaced]

/-- A single link that is known by some of its parts. -/
theorem exists_of_toOption_map {ε α β : Type} {r : Except ε (List α)} {f : α → β} {b : β}
    (h : r.toOption.map (List.map f) = some [b]) : ∃ a, r = .ok [a] ∧ f a = b := by
  cases r with
  | error e => cases h
  | ok as =>
      have has : as.map f = [b] := Option.some.inj h
      obtain ⟨a, rfl, ha⟩ := List.map_eq_singleton_iff.1 has
      exact ⟨a, rfl, ha⟩

theorem eq_of_append_anchorSuffix {recommended : String} (hanchor : anchor = some "T")
    (h : "sub/t.md#T" = recommended ++ Checking.anchorSuffix anchor) :
    recommended = "sub/t.md" := by
  subst hanchor
  have hsuffix : "sub/t.md" ++ "#T" = recommended ++ "#T" := h
  exact ((String.append_left_inj "#T").1 hsuffix).symm

/-- A link with an anchor is mended. -/
theorem valid_of_converted_misplaced :
    ∃ l, ((misplacedSession "/sub").validate misplaced "/s.md").2 = .ok [l] ∧
      l.verdict = some (misplacedWarning "/sub/t.md") ∧
      ((misplacedSession "/sub").run misplaced
        (Checking.check misplaced ⟨.finite false 0, 5⟩ "/s.md"
          { l with target := ⟨some ⟨"sub/t.md", "", ""⟩, some "T"⟩ })).2 =
            .ok (.valid (some "/sub/t.md")) := by
  have hparts : ((misplacedSession "/sub").validate misplaced "/s.md").2.toOption.map
      (List.map fun l => (l.source, l.target.anchor, l.verdict)) =
        some [("/s.md", some "T", some (misplacedWarning "/sub/t.md"))] := by decide +kernel
  obtain ⟨l, hls, hl⟩ := exists_of_toOption_map hparts
  simp only [Prod.mk.injEq] at hl
  obtain ⟨hsource, hanchor, hverdict⟩ := hl
  have hscope : ∀ f, (misplacedSession "/sub").finder = some f → Path.root f.scope ≠ "//" := by
    intro f hf
    cases hf
    decide
  have hs : (misplacedSession "/sub").ReachableIn misplaced :=
    reachableIn_misplacedSession "/sub" (by decide +kernel)
  obtain ⟨recommended, hrecommended, -, hvalid⟩ :=
    valid_of_converted isPlain_misplaced percent_notMem_misplaced hs (by decide) hscope hls
      (List.mem_singleton_self l) hverdict
  obtain rfl := eq_of_append_anchorSuffix hanchor hrecommended
  refine ⟨l, hls, hverdict, ?_⟩
  rw [hsource, hanchor] at hvalid
  exact hvalid (misplacedSession "/sub") _ _ ⟨"", "", ""⟩ hs rfl rfl

/-- **The recommended path does not always lead to the path that was found**: a scope that starts
with two slashes keeps them, and the document does not have them. -/
theorem not_valid_of_converted :
    ¬ ∀ (t : FileTree) (s : Session) (path problem resolved : String)
      (conversion : PathConversion) (suggestion : Option String) (ls : List Link) (l : Link),
      t.IsPlain → (∀ n ∈ t.nodes, ∀ name ∈ n.1, '%' ∉ name.toList) → s.ReachableIn t →
      (s.validate t path).2 = .ok ls → l ∈ ls →
      l.verdict = some (.warning problem conversion resolved suggestion) →
      ∃ recommended,
        conversion.recommended = recommended ++ Checking.anchorSuffix l.target.anchor ∧
        Resolution.literal? t recommended l.source = some resolved := by
  intro h
  have hparts : ((misplacedSession "//sub").validate misplaced "/s.md").2.toOption.map
      (List.map fun l => (l.source, l.target.anchor, l.verdict)) =
        some [("/s.md", some "T", some (misplacedWarning "//sub/t.md"))] := by decide +kernel
  obtain ⟨l, hls, hl⟩ := exists_of_toOption_map hparts
  simp only [Prod.mk.injEq] at hl
  obtain ⟨hsource, hanchor, hverdict⟩ := hl
  obtain ⟨recommended, hrecommended, hliteral⟩ :=
    h misplaced (misplacedSession "//sub") "/s.md" _ _ _ _ _ l isPlain_misplaced
      percent_notMem_misplaced (reachableIn_misplacedSession "//sub" (by decide +kernel)) hls
      (List.mem_singleton_self l) hverdict
  obtain rfl := eq_of_append_anchorSuffix hanchor hrecommended
  have hfound : Resolution.literal? misplaced "sub/t.md" "/s.md" = some "/sub/t.md" := by
    decide +kernel
  rw [hsource, hfound] at hliteral
  exact absurd hliteral (by decide)

end Session

end Citations

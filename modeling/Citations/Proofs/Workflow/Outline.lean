/-
**The links of an outline.**

An outline takes the path of a document as it is written, and checking takes its normal form, seen
from the working directory.  The path of the document shows in its links: each says which document
holds it, and the absolute path of its target begins with the directory of the document.  Nothing
else of a link depends on how the path is written, not even the way to its target.

Main definitions:

* `Citations.Link.unchecked` — a link without its verdict;
* `Citations.Link.seenFrom` — a link whose paths are seen from a directory;
* `Citations.Workflow.Outlines` — what it is that links are those of an outline.

Main results:

* `Citations.Document.links_parse_absolute` — the links of a document that is seen from a directory;
* `Citations.Workflow.outline_links_eq` — **the links of an outline, once they are seen from the
  working directory, are those that are checked**;
* `Citations.Workflow.not_outline_links_eq` — they are not the same as they are.
-/

import Citations.Proofs.Checking.Source
import Citations.Proofs.Link.Overlap
import Citations.Workflow

set_option relaxedAutoImplicit false
set_option autoImplicit false

namespace Citations

open Text

variable {cwd source : String}

/-- A link without its verdict. -/
def Link.unchecked (l : Link) : Link := { l with verdict := none }

/-- The file that a link points at, its absolute path being seen from a directory. -/
def TargetPath.seenFrom (cwd : String) (p : TargetPath) : TargetPath :=
  { p with absolute := Path.absolute cwd p.absolute }

/-- **A link whose paths are seen from a directory**: that of its document, and the absolute one of
its target. -/
def Link.seenFrom (cwd : String) (l : Link) : Link :=
  { l with
    source := Path.absolute cwd l.source
    target := { l.target with path := l.target.path.map (TargetPath.seenFrom cwd) } }

/-- The path of the document that holds a link, and the absolute path of its target. -/
def Link.places (l : Link) : String × Option String :=
  (l.source, l.target.path.map TargetPath.absolute)

/-! ### The links of a document that is seen from a directory -/

theorem TargetPath.ofRaw_absolute (hcwd : Path.isAbsolute cwd = true)
    (hname : Path.IsName (Path.fileName source)) (raw : String) :
    TargetPath.ofRaw cwd (Path.absolute cwd source) raw =
      (TargetPath.ofRaw cwd source raw).seenFrom cwd := by
  simp only [TargetPath.ofRaw, TargetPath.seenFrom, ← Path.absolute_resolve hcwd hname,
    Path.relativeToDocument_absolute hcwd hname]

theorem Link.ofCitation_absolute (hcwd : Path.isAbsolute cwd = true)
    (hname : Path.IsName (Path.fileName source)) (number : Nat) (line : List Char) (c : Citation)
    (markerStop : Nat) :
    Link.ofCitation ⟨cwd, Path.absolute cwd source, number⟩ line c markerStop =
      (Link.ofCitation ⟨cwd, source, number⟩ line c markerStop).seenFrom cwd := by
  have hpath : c.path.map (TargetPath.ofRaw cwd (Path.absolute cwd source)) =
      (c.path.map (TargetPath.ofRaw cwd source)).map (TargetPath.seenFrom cwd) := by
    rw [Option.map_map]
    exact congrArg (Option.map · c.path) (funext (TargetPath.ofRaw_absolute hcwd hname))
  simp only [Link.ofCitation, Link.seenFrom, hpath]

theorem Link.ofCitations_absolute (hcwd : Path.isAbsolute cwd = true)
    (hname : Path.IsName (Path.fileName source)) (number : Nat) (line : List Char)
    (cs : List Citation) :
    Link.ofCitations ⟨cwd, Path.absolute cwd source, number⟩ line cs =
      (Link.ofCitations ⟨cwd, source, number⟩ line cs).map (Link.seenFrom cwd) := by
  have hcitation := Link.ofCitation_absolute hcwd hname number line
  induction cs with
  | nil => rfl
  | cons c cs ih =>
      cases cs with
      | nil => simp only [Link.ofCitations, hcitation, List.map_cons, List.map_nil]
      | cons next rest => simp only [Link.ofCitations, hcitation, ih, List.map_cons]

namespace Document

theorem scanLines_map {α β : Type} (excluded : Nat → Bool) (read : Nat → List Char → List α)
    (f : α → β) (index : Nat) (ls : List (List Char)) :
    scanLines excluded (fun number line => (read number line).map f) index ls =
      (scanLines excluded read index ls).map f := by
  induction ls generalizing index with
  | nil => rfl
  | cons l ls ih =>
      simp only [scanLines, List.map_append, ih]
      split <;> rfl

variable {dialect : Markdown.Dialect} {content : String}

/-- **The links of a document that is seen from a directory** are its links, seen from there. -/
theorem links_parse_absolute (dialect : Markdown.Dialect) (content : String)
    (hcwd : Path.isAbsolute cwd = true) (hname : Path.IsName (Path.fileName source)) :
    (parse dialect cwd (Path.absolute cwd source) content).links =
      (parse dialect cwd source content).links.map (Link.seenFrom cwd) := by
  have hline (number : Nat) (line : List Char) :
      Link.ofLine ⟨cwd, Path.absolute cwd source, number⟩ (String.ofList line) =
        (Link.ofLine ⟨cwd, source, number⟩ (String.ofList line)).map (Link.seenFrom cwd) :=
    Link.ofCitations_absolute hcwd hname number _ _
  simp only [parse, hline]
  exact scanLines_map _ _ _ _ _

/-- Nothing has been said of the links of a document that was just read. -/
theorem unchecked_of_mem_links {l : Link} (h : l ∈ (parse dialect cwd source content).links) :
    l.unchecked = l := by
  obtain ⟨_, _, _, _, _, hl⟩ := exists_of_mem_scanLines h
  obtain ⟨_, -, _, rfl⟩ := Link.exists_of_mem_ofCitations hl
  rfl

/-- The absolute path of a target starts at the root if the path in the link does, or that of the
document. -/
theorem isAbsolute_of_mem_links {l : Link} (h : l ∈ (parse dialect cwd source content).links)
    {p : TargetPath} (hp : l.target.path = some p) :
    Path.isAbsolute p.absolute = (Path.isAbsolute (decode p.raw) || Path.isAbsolute source) := by
  obtain ⟨_, _, _, _, _, hl⟩ := exists_of_mem_scanLines h
  obtain ⟨c, -, _, rfl⟩ := Link.exists_of_mem_ofCitations hl
  obtain ⟨raw, -, rfl⟩ := Option.map_eq_some_iff.1 hp
  exact Path.isAbsolute_resolve (decode raw) source

end Document

theorem Checking.Enriches.map_unchecked {links enriched : List Link}
    (h : Checking.Enriches links enriched) :
    enriched.map Link.unchecked = links.map Link.unchecked := by
  induction h with
  | nil => rfl
  | cons hl _ ih =>
      obtain ⟨v, rfl⟩ := hl
      rw [List.map_cons, List.map_cons, ih]
      rfl

/-! ### The two runs -/

namespace Workflow

variable {t : FileTree} {settings : Settings} {scope : Option String} {s : Session}
  {path content : String}

theorem outline_of_session (hsession : session t settings scope = .ok s)
    (htext : t.readText path = .ok content) :
    outline t settings path = .ok (.parse s.dialect t.cwdPath path content) := by
  obtain ⟨dialect, chosen, hdialect, -, rfl⟩ := exists_of_session hsession
  rw [outline, hdialect]
  simp only [htext]
  rfl

theorem steady_of_session (hsession : session t settings scope = .ok s) : s.Steady t := by
  obtain ⟨dialect, chosen, -, hlisted, rfl⟩ := exists_of_session hsession
  exact Session.steady_start (Session.hasScopeRoot_start_of_listed hlisted dialect settings.policy)

theorem validate_of_session (hsession : session t settings scope = .ok s) :
    validate t settings scope path = (s.validate t path).2.mapError .check := by
  simp only [validate, hsession, bind, Except.bind]
  cases (s.validate t path).2 <;> rfl

/-- **What it is that links are those of an outline**, seen from the working directory and but for
the verdicts. -/
structure Outlines (t : FileTree) (path : String) (outlined ls : List Link) : Prop where
  /-- They are the links of the outline, seen from the working directory. -/
  seen : ls.map Link.unchecked = outlined.map (Link.seenFrom t.cwdPath)
  /-- They are the same as they are only if there are none, or if the path is its normal form. -/
  same : ls.map Link.unchecked = outlined ↔ outlined = [] ∨ Path.absolute t.cwdPath path = path
  /-- The absolute path of a target starts at the root. -/
  absolute : ∀ l ∈ ls, ∀ p, l.target.path = some p → Path.isAbsolute p.absolute = true

/-- The links of a document that is read at the normal form of a path are those of the outline. -/
theorem outlines_of_enriches (hname : Path.IsName (Path.fileName path)) (dialect : Markdown.Dialect)
    {ls : List Link} (h : Checking.Enriches
      (Document.parse dialect t.cwdPath (Path.absolute t.cwdPath path) content).links ls) :
    Outlines t path (Document.parse dialect t.cwdPath path content).links ls := by
  have hcwd : Path.isAbsolute t.cwdPath = true := FileTree.isAbsolute_pathTo t.cwd
  have hunchecked : ls.map Link.unchecked =
      (Document.parse dialect t.cwdPath (Path.absolute t.cwdPath path) content).links :=
    h.map_unchecked.trans
      ((List.map_congr_left fun _ => Document.unchecked_of_mem_links).trans
        (List.map_id _))
  have hseen := Document.links_parse_absolute dialect content hcwd hname
  refine ⟨hunchecked.trans hseen, ⟨fun heq => ?_, ?_⟩, ?_⟩
  · -- a link that is the same names the same document
    by_cases hnil : (Document.parse dialect t.cwdPath path content).links = []
    · exact .inl hnil
    obtain ⟨l, hl⟩ := List.exists_mem_of_ne_nil _ hnil
    have hsame : (Document.parse dialect t.cwdPath path content).links.map
        (Link.seenFrom t.cwdPath) = (Document.parse dialect t.cwdPath path content).links.map id :=
      (hunchecked.trans hseen).symm.trans (heq.trans (List.map_id _).symm)
    have hsource : Path.absolute t.cwdPath l.source = l.source :=
      congrArg Link.source (List.map_inj_left.1 hsame l hl)
    rw [Document.source_of_mem_links hl] at hsource
    exact .inr hsource
  · rintro (hnil | hpath)
    · rw [hunchecked, hseen, hnil, List.map_nil]
    · rw [hunchecked, hpath]
  · intro l hl p hp
    have hmem : l.unchecked ∈
        (Document.parse dialect t.cwdPath (Path.absolute t.cwdPath path) content).links :=
      hunchecked ▸ List.mem_map_of_mem hl
    rw [Document.isAbsolute_of_mem_links hmem hp, Path.isAbsolute_absolute hcwd,
      Bool.or_true]

/-- **The links of an outline are those that are checked, once they are seen from the working
directory** and but for the verdicts.  They are the same as they are only if there are none, or if
the path is its own normal form.  The absolute path of a target starts at the root in a link that is
checked; in an outline it does so only if the path in the link does, or that of the document.  Only
a null character in some path can keep the links from being checked. -/
theorem outline_links_eq (ht : t.IsRooted) (hsession : session t settings scope = .ok s)
    (hfile : t.isFile path = true) (htext : t.readText path = .ok content)
    (hclimb : t.climbsBehindLink path = false)
    (hsize : (Path.absolute t.cwdPath path).utf8ByteSize ≤ FileTree.maxPathLength) :
    ∃ d, outline t settings path = .ok d ∧
      ((∃ ls, validate t settings scope path = .ok ls ∧ Outlines t path d.links ls) ∨
        validate t settings scope path = .error (.check (.search .nullCharacter)) ∧
          ¬ s.IsNullFree t (d.links.map (Link.seenFrom t.cwdPath))) ∧
      ∀ l ∈ d.links, ∀ p, l.target.path = some p →
        Path.isAbsolute p.absolute = (Path.isAbsolute (decode p.raw) || Path.isAbsolute path) := by
  have hcwd : Path.isAbsolute t.cwdPath = true := FileTree.isAbsolute_pathTo t.cwd
  have hname := ht.isName_fileName hfile
  -- checking reads the same text, but under the normal form of the path
  have hkey := ht.readText_absolute hclimb hsize hfile htext
  refine ⟨_, outline_of_session hsession htext, ?_,
    fun l hl p hp => Document.isAbsolute_of_mem_links hl hp⟩
  rw [validate_of_session hsession]
  rcases (steady_of_session hsession).validate_of_load_ok hfile (Session.load_of_readText hkey) with
    ⟨ls, hls, henriches⟩ | ⟨hfails, hnull⟩
  · exact .inl ⟨ls, by rw [hls]; rfl, outlines_of_enriches hname s.dialect henriches⟩
  · refine .inr ⟨by rw [hfails]; rfl, ?_⟩
    rwa [← Document.links_parse_absolute s.dialect content hcwd hname]

/-- A directory with a note that holds a link to another note. -/
def linkedNotes : FileTree where
  cwd := ["d"]
  nodes := [(["d"], .directory), (["d", "s.md"], .file "[x](t.md#T)\n".toUTF8.toList),
    (["d", "t.md"], .file "# T\n".toUTF8.toList)]

theorem isRooted_linkedNotes : linkedNotes.IsRooted where
  cwd := by unfold FileTree.IsPlace Path.IsName; decide
  short := by decide
  directory := by decide
  parents := by decide

/-- A path that is its own normal form gives an outline with the links that are checked. -/
theorem outline_links_eq_linkedNotes :
    ∃ d ls, outline linkedNotes {} "/d/s.md" = .ok d ∧
      validate linkedNotes {} none "/d/s.md" = .ok ls ∧ ls.map Link.unchecked = d.links := by
  have hfile : linkedNotes.isFile "/d/s.md" = true := by decide +kernel
  have htext : linkedNotes.readText "/d/s.md" = .ok "[x](t.md#T)\n" := by decide +kernel
  have hchecked : (validate linkedNotes {} none "/d/s.md").toOption.isSome = true := by
    decide +kernel
  obtain ⟨d, hd, ⟨ls, hls, houtlines⟩ | ⟨hfails, -⟩, -⟩ := outline_links_eq isRooted_linkedNotes
    (session_default linkedNotes) hfile htext (by decide +kernel) (by decide +kernel)
  · exact ⟨d, ls, hd, hls, houtlines.same.2 (.inr (by decide +kernel))⟩
  · rw [hfails] at hchecked
    cases hchecked

/-- **The links of an outline are not always those that are checked**: they name the document as it
was named, and the path of a target need not start at the root. -/
theorem not_outline_links_eq :
    ¬ ∀ (t : FileTree) (settings : Settings) (scope : Option String) (s : Session)
      (path content : String), t.IsRooted → session t settings scope = .ok s →
        t.isFile path = true → t.readText path = .ok content →
          ∃ d ls, outline t settings path = .ok d ∧ validate t settings scope path = .ok ls ∧
            ls.map Link.unchecked = d.links := by
  intro h
  obtain ⟨d, ls, hd, hls, hlinks⟩ := h linkedNotes {} none _ "s.md" "[x](t.md#T)\n"
    isRooted_linkedNotes (session_default linkedNotes) (by decide +kernel) (by decide +kernel)
  have houtline : (outline linkedNotes {} "s.md").toOption.map (·.links.map Link.places) =
      some [("s.md", some "t.md")] := by decide +kernel
  have hchecked : (validate linkedNotes {} none "s.md").toOption.map
      (fun ls => (ls.map Link.unchecked).map Link.places) =
        some [("/d/s.md", some "/d/t.md")] := by decide +kernel
  rw [hd] at houtline
  rw [hls] at hchecked
  have hplaces : d.links.map Link.places = [("s.md", some "t.md")] := Option.some.inj houtline
  have hplaces' : (ls.map Link.unchecked).map Link.places = [("/d/s.md", some "/d/t.md")] :=
    Option.some.inj hchecked
  rw [hlinks, hplaces] at hplaces'
  revert hplaces'
  decide

end Workflow

end Citations

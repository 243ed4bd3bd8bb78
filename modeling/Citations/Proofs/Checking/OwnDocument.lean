/-
**Links of a document to itself.**

A link to an anchor of its own document can be written with the name of the document or without it.
The one is checked in the document that is at hand; for the other, the path is resolved and the
document found there is asked for.  Both come to the same document, so that the verdicts differ only
in that the one says where the document was found.

Main definitions:

* `Citations.Verdict.unplaced` — a verdict that does not say where the target was found;
* `Citations.Link.NamesOwn` — two links to an anchor of their document, the one by its name.

Main results:

* `Citations.Resolution.literal?_fileName` — the name of a document leads to the document;
* `Citations.Session.own_document_verdicts` — **both links have one verdict**, but for the place.
-/

import Citations.Proofs.Checking.Schedule
import Citations.Proofs.FileTree.WorkingDirectory

set_option relaxedAutoImplicit false
set_option autoImplicit false

namespace Citations

open Text

/-- A verdict that does not say where the target was found, if it was found in order. -/
def Verdict.unplaced : Verdict → Verdict
  | .valid _ => .valid none
  | v => v

/-- **Two links of a document to one of its anchors**: the one names the anchor only, and the other
also the document, as a file beside itself. -/
structure Link.NamesOwn (path anchor : String) (inside byName : Link) : Prop where
  kind : inside.kind ≠ .caret
  source : inside.source = path
  target : inside.target = ⟨none, some anchor⟩
  sourceByName : byName.source = path
  targetByName : ∃ file, byName.target = ⟨some file, some anchor⟩ ∧ file.raw = Path.fileName path

/-- **The name of a document leads to the document**, if it holds no percent sign. -/
theorem Resolution.literal?_fileName {t : FileTree} {path : String}
    (habsolute : Path.isAbsolute path = true) (hnormal : Path.normalize path = path)
    (hpercent : '%' ∉ (Path.fileName path).toList) (hfile : t.isFile path = true) :
    literal? t (Path.fileName path) path = some path := by
  have hreadings : readings (Path.fileName path) = [Path.fileName path] := by
    rw [readings, decode_eq_self hpercent, List.eraseDups_cons]
    simp
  have hbesides : besides path (Path.fileName path) = path := by
    rw [besides, Path.normalize_join_fileName habsolute, hnormal]
  rw [literal?, hreadings, List.map_singleton, hbesides, List.find?_singleton, hfile]
  rfl

namespace Session

open Checking

variable {s : Session} {t : FileTree} {path a : String} {d : Document} {l : Link}

/-- The verdict on a link to an anchor, in the document that is at hand. -/
theorem run_checkOf_inside (hkind : l.kind ≠ .caret) (htarget : l.target = ⟨none, some a⟩) :
    (s.run t (checkOf t s.policy d l)).2 =
      .ok (anchorVerdict s.policy a path (.valid none) none (.ok d)) := by
  unfold checkOf inDocument
  rw [htarget]
  simp only [if_neg hkind, Option.getD_some]
  rfl

/-- The verdict on a link to an anchor of the document at a path that it leads to. -/
theorem run_checkOf_of_literal? (ha : a ≠ "") {file : TargetPath}
    (htarget : l.target = ⟨some file, some a⟩)
    (hliteral : Resolution.literal? t file.raw l.source = some path)
    (hd : (s.document t path).2 = .ok d) (other : Document) :
    (s.run t (checkOf t s.policy other l)).2 =
      .ok (anchorVerdict s.policy a path (.valid (some path)) none (.ok d)) := by
  have hdirect := Resolution.direct?_of_literal? hliteral
  unfold checkOf
  rw [htarget]
  dsimp only
  rw [run_acrossDocuments_eq, run_target_of_direct hdirect]
  dsimp only
  rw [run_verdictAt_found, run_withAnchor_eq ha, hd]

/-- What is said of an anchor depends on the place only where it was found. -/
theorem unplaced_anchorVerdict (policy : SuggestionPolicy) (d : Document) :
    (anchorVerdict policy a path (.valid (some path)) none (.ok d)).unplaced =
      (anchorVerdict policy a path (.valid none) none (.ok d)).unplaced := by
  simp only [anchorVerdict]
  split <;> rfl

/-- A document that was read at a normal form is a file there. -/
theorem isFile_of_load {key : String} (hnormal : Path.normalize key = key)
    (h : s.load t key = .ok d) : t.isFile key = true := by
  have htidy : Path.tidy key = key := hnormal ▸ Path.tidy_normalize key
  cases htext : t.readText key with
  | error e =>
      rw [load, htext] at h
      cases h
  | ok content => exact FileTree.isFile_of_readText htidy htext

/-- **A link of a document to one of its anchors has one verdict**, whether it gives the name of the
document or not, but for the place where the document was found: if the document has the anchor, it
is in order, and else the same is said to be wrong with it, and the same anchors are suggested.  It
does not matter whether the document is checked as a whole or the links by themselves. -/
theorem own_document_verdicts (hs : s.ReachableIn t) (habsolute : Path.isAbsolute path = true)
    (hnormal : Path.normalize path = path) (hpercent : '%' ∉ (Path.fileName path).toList)
    (hd : (s.document t path).2 = .ok d) :
    ∃ outcome, Settles t s path d outcome ∧
      ∀ a inside byName, a ≠ "" → Link.NamesOwn path a inside byName →
        ∃ v w, outcome inside = .ok v ∧ outcome byName = .ok w ∧ w.unplaced = v.unplaced ∧
          v = (if d.hasAnchor a then .valid none
            else .error (anchorProblem a) (some (d.suggestion s.policy a))) ∧
          ∀ u, s.LeadsTo t u →
            (u.run t (check t u.policy path inside)).2 = .ok v ∧
            (u.run t (check t u.policy path byName)).2 = .ok w := by
  have hsteady := hs.steady
  have hkey : Path.absolute t.cwdPath path = path := by
    rw [Path.absolute_of_isAbsolute _ habsolute, hnormal]
  have hload : s.load t path = .ok d := by rw [← hkey, ← hsteady.document_snd, hd]
  have hfile := isFile_of_load hnormal hload
  have hsettles := hsteady.sound.settles hsteady.listed_eq_none hfile hd
    fun l hl => by rw [source_of_mem_links_of_load hload hl, hd]
  refine ⟨_, hsettles, fun a inside byName ha hown => ?_⟩
  obtain ⟨file, htarget, hraw⟩ := hown.targetByName
  have hliteral : Resolution.literal? t file.raw byName.source = some path := by
    rw [hraw, hown.sourceByName]
    exact Resolution.literal?_fileName habsolute hnormal hpercent hfile
  have hinside : (s.run t (checkOf t s.policy d inside)).2 =
      .ok (anchorVerdict s.policy a path (.valid none) none (.ok d)) :=
    run_checkOf_inside hown.kind hown.target
  have hbyName := run_checkOf_of_literal? ha htarget hliteral hd d
  have halone {u : Session} (hu : s.LeadsTo t u) {l : Link} (hsource : l.source = path)
      {v : Verdict} (hv : (s.run t (checkOf t s.policy d l)).2 = .ok v) :
      (u.run t (check t u.policy path l)).2 = .ok v := by
    have hdu : (u.document t l.source).2 = .ok d := by
      rw [hu.document_snd hsteady.sound, hsource, hd]
    rw [← hsource, run_check_of_document hdu, hu.policy,
      hu.run_snd_of_listed hsteady.sound hsteady.listed_eq_none, hv]
    rfl
  refine ⟨_, _, hinside, hbyName, unplaced_anchorVerdict s.policy d, ?_, fun u hu => ⟨?_, ?_⟩⟩
  · simp only [anchorVerdict, Option.map_none, Option.getD_none, String.empty_append]
  · exact halone hu hown.source hinside
  · exact halone hu hown.sourceByName hbyName

/-- A note with two links to its heading. -/
def headedContent : String := "[x](#One)\n[y](s.md#One)\n\n# One\n"

/-- The note in a tree of its own. -/
def headed : FileTree where
  cwd := []
  nodes := [(["s.md"], .file headedContent.toUTF8.toList)]

/-- A session that has read nothing of the note. -/
def headedSession : Session := start headed .standard ⟨.finite false 0, 5⟩ none

/-- The first link of the note. -/
def insideLink : Link where
  kind := .markdown
  anchorKind := some .header
  source := "/s.md"
  target := ⟨none, some "One"⟩
  text := some "x"
  fullMatch := "[x](#One)"
  line := 1
  column := 0
  marker := none
  verdict := none

/-- The second link of the note. -/
def byNameLink : Link :=
  { insideLink with
    target := ⟨some ⟨"s.md", "/s.md", "s.md"⟩, some "One"⟩
    text := some "y"
    fullMatch := "[y](s.md#One)"
    line := 2 }

theorem namesOwn_headed : Link.NamesOwn "/s.md" "One" insideLink byNameLink where
  kind := by decide
  source := rfl
  target := rfl
  sourceByName := rfl
  targetByName := ⟨_, rfl, by decide +kernel⟩

/-- The two links of the note have one verdict. -/
theorem own_document_verdicts_headed :
    ∃ d outcome v w, (headedSession.document headed "/s.md").2 = .ok d ∧
      insideLink ∈ d.links ∧ byNameLink ∈ d.links ∧
      Settles headed headedSession "/s.md" d outcome ∧
        outcome insideLink = .ok v ∧ outcome byNameLink = .ok w ∧ w.unplaced = v.unplaced := by
  have hs : headedSession.ReachableIn headed := .start _ _ _ (hasScopeRoot_start_none _ _)
  have htext : headed.readText "/s.md" = .ok headedContent := by decide +kernel
  have hkey : Path.absolute headed.cwdPath "/s.md" = "/s.md" := by decide +kernel
  have hd : (headedSession.document headed "/s.md").2 =
      .ok (.parse .standard headed.cwdPath "/s.md" headedContent) := by
    rw [hs.steady.document_snd, hkey, load, htext]
    rfl
  obtain ⟨outcome, hsettles, hown⟩ := own_document_verdicts hs (by decide +kernel)
    (by decide +kernel) (by decide +kernel) hd
  obtain ⟨v, w, hv, hw, hsame, -⟩ := hown "One" insideLink byNameLink (by decide) namesOwn_headed
  exact ⟨_, outcome, v, w, hd, by decide +kernel, by decide +kernel, hsettles, hv, hw, hsame⟩

end Session

end Citations

/-
**The file that is checked.**

Whether there is a file to check is asked at its path as it is written.  What is read then, and is
remembered, is the document at the normal form of the path, seen from the working directory.  The
two are one file, unless `..` comes behind a link on the path: there the file that is checked is
another one than the path leads to, or there is none.

Main definitions:

* `Citations.Session.ChecksLinks` — what comes of checking a document that can be read.

Main results:

* `Citations.Session.Steady.validate_of_load_ok`,
  `Citations.Session.Steady.validate_of_load_error` — what comes of checking, once it is known what
  comes of reading;
* `Citations.Session.validate_file_at_path` — **the file that is checked is the file at the path**,
  unless `..` comes behind a link;
* `Citations.Session.not_validate_file_at_path` — that condition cannot be left out.
-/

import Citations.Proofs.Checking.Enrichment
import Citations.Proofs.FileTree.WorkingDirectory
import Citations.Proofs.Session.Steady

set_option relaxedAutoImplicit false
set_option autoImplicit false

namespace Citations.Session

open Checking Text

variable {s : Session} {t : FileTree} {path : String} {d : Document}

/-! ### Reading and checking -/

theorem load_of_readText {key text : String} (h : t.readText key = .ok text) :
    s.load t key = .ok (.parse s.dialect t.cwdPath key text) := by
  rw [load, h]
  rfl

theorem load_of_readText_error {key : String} {e : ReadFailure} (h : t.readText key = .error e) :
    s.load t key = .error e := by
  rw [load, h]
  rfl

/-- What comes of checking a document that has these links: they come with verdicts, unless a null
character in some path keeps one of them from having any. -/
def ChecksLinks (t : FileTree) (s : Session) (path : String) (links : List Link) : Prop :=
  (∃ ls, (s.validate t path).2 = .ok ls ∧ Enriches links ls) ∨
    (s.validate t path).2 = .error (.search .nullCharacter) ∧ ¬ s.IsNullFree t links

/-- A document that can be read is checked, as long as the files stay as they are. -/
theorem Steady.validate_of_load_ok (hs : s.Steady t) (hfile : t.isFile path = true)
    (h : s.load t (Path.absolute t.cwdPath path) = .ok d) : s.ChecksLinks t path d.links := by
  have hd : (s.document t path).2 = .ok d := (hs.document_snd path).trans h
  have hlisted := hs.listed_eq_none
  have hread : (s.document t path).1.listingFailure? t = none := hlisted
  rw [ChecksLinks, validate_snd hfile hd, run_checkAll_snd]
  by_cases hfree : s.IsNullFree t d.links
  · rcases run_each_checkOf (hfree.document path) s.policy d with ⟨-, ls, hls, henriches⟩ | ⟨e, he, -⟩
    · exact .inl ⟨ls, by rw [hls]; rfl, henriches⟩
    · rw [hread] at he
      cases he
  · have hchecks := Inquiry.Ensures.each (ensures_checkOf_any t s.policy d) d.links
    obtain ⟨hlength, hfails⟩ := hchecks.run (answersNames_any hread)
    rcases enrich_cases hlength with ⟨ls, hls, henriches⟩ | ⟨e, he, henrich⟩
    · exact .inl ⟨ls, by rw [hls]; rfl, henriches⟩
    · obtain rfl := hfails _ he e rfl
      exact .inr ⟨by rw [henrich]; rfl, hfree⟩

/-- A document that cannot be read is not checked. -/
theorem Steady.validate_of_load_error (hs : s.Steady t) (hfile : t.isFile path = true)
    {e : ReadFailure} (h : s.load t (Path.absolute t.cwdPath path) = .error e) :
    (s.validate t path).2 = .error (.unreadable e) :=
  validate_snd_of_unreadable hfile ((hs.document_snd path).trans h)

/-! ### The file at the path -/

/-- **The file that is checked is the file at the path**: always the one at the normal form of the
path, seen from the working directory; and that is the same place, unless `..` comes behind a link
or the normal form is too long.  Then the links are those of the text of the file, and only a file
that is not UTF-8 cannot be read. -/
theorem validate_file_at_path (hs : s.ReachableIn t) (hfile : t.isFile path = true) :
    ((∃ text, t.readText (Path.absolute t.cwdPath path) = .ok text ∧
        s.ChecksLinks t path
          (Document.parse s.dialect t.cwdPath (Path.absolute t.cwdPath path) text).links) ∨
      ∃ e, t.readText (Path.absolute t.cwdPath path) = .error e ∧
        (s.validate t path).2 = .error (.unreadable e)) ∧
    (t.IsRooted → t.climbsBehindLink path = false →
      (Path.absolute t.cwdPath path).utf8ByteSize ≤ FileTree.maxPathLength →
        t.locate (Path.absolute t.cwdPath path) = t.locate path ∧
        ∀ bytes, t.read path = .ok bytes →
          (∀ cs, Utf8.decode bytes = .ok cs → ∃ d,
            (s.document t path).2 = .ok d ∧ d.content = String.ofList (unifyBreaks cs) ∧
              s.ChecksLinks t path d.links) ∧
          ∀ f, Utf8.decode bytes = .error f → (s.validate t path).2 =
            .error (.unreadable ⟨Path.absolute t.cwdPath path, .encoding f⟩)) := by
  have hsteady := hs.steady
  constructor
  · cases htext : t.readText (Path.absolute t.cwdPath path) with
    | ok text =>
        exact .inl ⟨text, rfl, hsteady.validate_of_load_ok hfile (load_of_readText htext)⟩
    | error e =>
        exact .inr ⟨e, rfl, hsteady.validate_of_load_error hfile (load_of_readText_error htext)⟩
  · intro ht hclimb hsize
    refine ⟨ht.locate_absolute_of_isFile hclimb hsize hfile, fun bytes hread => ?_⟩
    have htext := ht.readText_absolute_of_read hclimb hsize hread
    constructor
    · intro cs hcs
      rw [hcs] at htext
      have hload : s.load t (Path.absolute t.cwdPath path) = .ok _ := load_of_readText htext
      exact ⟨_, (hsteady.document_snd path).trans hload, rfl,
        hsteady.validate_of_load_ok hfile hload⟩
    · intro f hf
      rw [hf] at htext
      exact hsteady.validate_of_load_error hfile (load_of_readText_error htext)

/-- Two notes of one name, and a link from beside the one to a directory beside the other. -/
def twoNotes : FileTree where
  cwd := ["v"]
  nodes := [(["v"], .directory), (["v", "other"], .directory),
    (["v", "other", "deep"], .directory), (["v", "link"], .link "other/deep"),
    (["v", "other", "x.md"], .file "# X\n".toUTF8.toList),
    (["v", "x.md"], .file "[y](gone.md)\n".toUTF8.toList)]

theorem isRooted_twoNotes : twoNotes.IsRooted where
  cwd := by unfold FileTree.IsPlace Path.IsName; decide
  short := by decide
  directory := by decide
  parents := by decide

/-- A session over the two notes. -/
def notesSession : Session := start twoNotes .standard ⟨.finite false 0, 5⟩ none

theorem reachableIn_notesSession : notesSession.ReachableIn twoNotes :=
  .start _ _ _ (hasScopeRoot_start_none _ _)

/-- A note is found by going up from a directory that no link leads to. -/
theorem validate_file_at_path_twoNotes :
    twoNotes.locate (Path.absolute twoNotes.cwdPath "other/deep/../x.md") =
      twoNotes.locate "other/deep/../x.md" ∧
    ∃ d ls, (notesSession.document twoNotes "other/deep/../x.md").2 = .ok d ∧
      d.content = "# X\n" ∧ (notesSession.validate twoNotes "other/deep/../x.md").2 = .ok ls ∧
        Enriches d.links ls := by
  have hfile : twoNotes.isFile "other/deep/../x.md" = true := by decide +kernel
  obtain ⟨hplace, hread⟩ := (validate_file_at_path reachableIn_notesSession hfile).2
    isRooted_twoNotes (by decide +kernel) (by decide +kernel)
  have hchecked : (notesSession.validate twoNotes "other/deep/../x.md").2.toOption.isSome =
      true := by decide +kernel
  obtain ⟨d, hd, hcontent, ⟨ls, hls, henriches⟩ | ⟨hfails, -⟩⟩ :=
    (hread "# X\n".toUTF8.toList (by decide +kernel)).1 "# X\n".toList (by decide +kernel)
  · exact ⟨hplace, d, ls, hd, hcontent.trans (by decide +kernel), hls, henriches⟩
  · rw [hfails] at hchecked
    cases hchecked

/-- **The file that is checked is not always the file at the path**: behind the link, `..` goes up
to a directory that holds another note. -/
theorem not_validate_file_at_path :
    ¬ ∀ (s : Session) (t : FileTree) (path : String) (bytes : List UInt8) (cs : List Char),
      s.ReachableIn t → t.IsRooted → t.isFile path = true → t.read path = .ok bytes →
        Utf8.decode bytes = .ok cs →
          ∃ d ls, (s.document t path).2 = .ok d ∧ d.content = String.ofList (unifyBreaks cs) ∧
            (s.validate t path).2 = .ok ls := by
  intro h
  obtain ⟨d, -, hd, hcontent, -⟩ := h notesSession twoNotes "link/../x.md" "# X\n".toUTF8.toList
    "# X\n".toList reachableIn_notesSession isRooted_twoNotes (by decide +kernel)
    (by decide +kernel) (by decide +kernel)
  have hother : (notesSession.document twoNotes "link/../x.md").2.toOption.map Document.content =
      some "[y](gone.md)\n" := by decide +kernel
  rw [hd] at hother
  have hnotes := hcontent.symm.trans (Option.some.inj hother)
  revert hnotes
  decide +kernel

end Citations.Session

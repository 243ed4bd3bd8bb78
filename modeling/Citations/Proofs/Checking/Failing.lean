/-
**What keeps a link from having a verdict.**

There is no verdict on a link where it cannot be said where its path leads, or how the path should
be written instead: a file may have to be looked for by name in a scope that cannot be listed, and a
path that is to be compared with another one may have no real path.  Only a null character can have
the second effect; so where no path holds one, each link has a verdict as long as names are
answered.

Main definitions:

* `Citations.Checking.NamedOf`, `Citations.Link.IsOf` — an answer and a link whose paths are of a
  kind;
* `Citations.Link.IsNullFree` — a link whose paths hold no null character where that matters;
* `Citations.Session.IsNullFree` — a session that comes by no path with a null character;
* `Citations.Checking.IsSoughtByName` — whether the target of a link is looked for by name.

Main results:

* `Citations.Checking.ensures_checkOf` — **why there can be no verdict**, as long as names are
  answered;
* `Citations.Checking.ensures_checkOf_any`, `Citations.Link.IsNullFree.ensures_checkOf` — for a null
  character, and so for no reason at all where no path holds one;
* `Citations.Session.IsNullFree.exists_tooLong_of_listingFailure?` — why such a session can fail to
  list its scope;
* `Citations.Checking.asksDocuments_checkOf` — a link that is not looked for by name asks for
  documents only.
-/

import Citations.Proofs.Checking.Run
import Citations.Proofs.FileIndex.Listing
import Citations.Proofs.FileTree.NullFree
import Citations.Proofs.Session.Listing

set_option relaxedAutoImplicit false
set_option autoImplicit false

namespace Citations

open FileTree (holdsNull)
open Text (decode)

theorem Except.exists_ok {ε α : Type} {r : Except ε α} (h : ∀ e, r = .error e → False) :
    ∃ a, r = .ok a := by
  cases r with
  | error e => exact (h e rfl).elim
  | ok a => exact ⟨a, rfl⟩

/-! ### Paths of a kind -/

section Kinds

variable {t : FileTree} {Kind : String → Prop} {Fails : SearchFailure → Prop}
  {K : Option NameResolution → Prop} {raw source path : String} {e : SearchFailure}
  {policy : SuggestionPolicy}

/-- What a name leads to is of a kind, if it leads anywhere. -/
def Checking.NamedOf (Kind : String → Prop) (named : Option NameResolution) : Prop :=
  ∀ r path, named = some r → r.path? = some path → Kind path

/-- The paths of a link are of a kind: that of its document, and, if a name can be answered with
something, that which it is written with, beside the document. -/
structure Link.IsOf (Kind : String → Prop) (K : Option NameResolution → Prop) (l : Link) :
    Prop where
  source : Kind l.source
  target : ∀ r path, K (some r) → l.target.path = some path →
    Kind (Path.join (Path.directory l.source) (decode path.raw))

theorem fails_of_direct? (hfails : t.FailsBy Kind Fails) (hsource : Kind source)
    (h : Resolution.direct? t raw source = .error e) : Fails e := by
  unfold Resolution.direct? at h
  split at h
  · cases h
  · exact hfails.realPath source e hsource
      (Except.map_eq_error_iff.1 (Except.map_eq_error_iff.1 h))

namespace Checking

/-- Whether two directories are the same can be said of each that has a real path. -/
theorem fails_of_byName (hfails : t.FailsBy Kind Fails) {named : Option NameResolution}
    (hraw : ∀ r, named = some r → Kind (Path.join (Path.directory source) (decode raw)))
    (hnamed : NamedOf Kind named) (h : byName t raw source named = .error e) : Fails e := by
  unfold byName at h
  split at h
  · cases h
  · rename_i r
    split at h
    · cases h
    · rename_i path hpath
      have hdirectory := hfails.directory path (hnamed r path rfl hpath)
      have hexpected := Except.map_eq_error_iff.1 h
      unfold isExpectedDirectory at hexpected
      cases hreal : t.realPath (Path.directory path) with
      | error e' =>
          rw [hreal] at hexpected
          cases hexpected
          exact hfails.realPath _ _ hdirectory hreal
      | ok real =>
          rw [hreal] at hexpected
          exact hfails.realPath _ _ (hfails.directory _ (hraw r rfl))
            (Except.map_eq_error_iff.1 hexpected)

theorem fails_of_conversion (hfails : t.FailsBy Kind Fails) {anchor : Option String}
    (hsource : Kind source) (hpath : Kind path)
    (h : conversion t raw anchor source path = .error e) : Fails e := by
  unfold conversion at h
  cases hreal : t.realPath (Path.directory source) with
  | error e' =>
      rw [hreal] at h
      cases h
      exact hfails.realPath _ _ (hfails.directory _ hsource) hreal
  | ok real =>
      rw [hreal] at h
      exact hfails.realPath _ _ hpath (Except.map_eq_error_iff.1 h)

theorem exists_of_byName_eq_elsewhere {named : Option NameResolution} {message : Option String}
    (h : byName t raw source named = .ok (.elsewhere path message)) :
    ∃ r, named = some r ∧ r.path? = some path := by
  unfold byName at h
  split at h
  · cases h
  · rename_i r
    split at h
    · cases h
    · rename_i found hfound
      obtain ⟨expected, -, hdestination⟩ := Except.map_eq_ok_iff.1 h
      split at hdestination
      · cases hdestination
      · cases hdestination
        exact ⟨r, rfl, hfound⟩

/-! ### Why there is no verdict -/

theorem ensures_target (hfails : t.FailsBy Kind Fails) (hK : ∀ named, K named → NamedOf Kind named)
    (hsource : Kind source)
    (hraw : ∀ r, K (some r) → Kind (Path.join (Path.directory source) (decode raw))) :
    (target t raw source).Ensures K fun r => (∀ e, r = .error e → Fails e) ∧
      ∀ path message, r = .ok (.elsewhere path message) → Kind path := by
  unfold target
  split
  · rename_i e hdirect
    refine .answer ⟨fun e' he' => ?_, fun path message h => by cases h⟩
    cases he'
    exact fails_of_direct? hfails hsource hdirect
  · exact .answer ⟨fun e h => (by cases h), fun path message h => by cases h⟩
  · refine .file _ fun named hnamed => .answer ⟨fun e h => ?_, fun path message h => ?_⟩
    · exact fails_of_byName hfails (fun r hr => hraw r (hr ▸ hnamed)) (hK named hnamed) h
    · obtain ⟨r, hr, hpath⟩ := exists_of_byName_eq_elsewhere h
      exact hK named hnamed r path hr hpath

theorem ensures_verdictAt (hfails : t.FailsBy Kind Fails) (hsource : Kind source)
    (anchor : Option String) {destination : Destination}
    (hdestination : ∀ path message, destination = .elsewhere path message → Kind path) :
    (verdictAt t policy raw anchor source destination).Ensures K fun r =>
      ∀ e, r = .error e → Fails e := by
  cases destination with
  | found path =>
      exact (Inquiry.ensures_of_forall (fun _ => trivial) _).bind fun v (_ : True) =>
        .answer fun e h => by cases h
  | elsewhere path message =>
      simp only [verdictAt]
      split
      · rename_i e hconversion
        refine .answer fun e' he' => ?_
        cases he'
        exact fails_of_conversion hfails hsource (hdestination path message rfl) hconversion
      · exact (Inquiry.ensures_of_forall (fun _ => trivial) _).bind fun v (_ : True) =>
          .answer fun e h => by cases h
  | missing message =>
      refine .answer fun e h => ?_
      exact hfails.realPath source e hsource
        (Except.map_eq_error_iff.1 (Except.map_eq_error_iff.1 h))

/-- **Why there can be no verdict on a link**, as long as names are answered: for the reasons that
its paths can have no real path. -/
theorem ensures_checkOf (hfails : t.FailsBy Kind Fails)
    (hK : ∀ named, K named → NamedOf Kind named) (d : Document) {l : Link} (hl : l.IsOf Kind K) :
    (checkOf t policy d l).Ensures K fun r => ∀ e, r = .error e → Fails e := by
  unfold checkOf
  cases htarget : l.target.path with
  | none => exact .answer fun e h => by cases h
  | some path =>
      refine (ensures_target hfails hK hl.source fun r hr => hl.target r path hr htarget).bind
        fun r hr => ?_
      cases r with
      | error e => exact .answer fun e' he' => hr.1 e' (by cases he'; rfl)
      | ok destination =>
          exact ensures_verdictAt hfails hl.source l.target.anchor fun found message h =>
            hr.2 found message (by rw [h])

/-- If there is no verdict though names are answered, some path holds a null character. -/
theorem ensures_checkOf_any (t : FileTree) (policy : SuggestionPolicy) (d : Document) (l : Link) :
    (checkOf t policy d l).Ensures (fun _ => True) fun r =>
      ∀ e, r = .error e → e = .nullCharacter :=
  ensures_checkOf t.failsBy_any (fun _ _ _ _ _ _ => trivial) d ⟨trivial, fun _ _ _ _ => trivial⟩

/-! ### Links that are looked for by name -/

/-- Whether the target of a link is looked for by name: its path leads nowhere directly. -/
def IsSoughtByName (t : FileTree) (l : Link) : Prop :=
  ∃ path, l.target.path = some path ∧ Resolution.direct? t path.raw l.source = .ok none

theorem asksDocuments_withAnchor (anchor : Option String) (path : String) (outcome : Verdict)
    (note : Option String) : (withAnchor policy anchor path outcome note).AsksDocuments := by
  cases anchor with
  | none => exact .answer _
  | some a =>
      by_cases ha : a = ""
      · rw [withAnchor, if_pos ha]
        exact .answer _
      · rw [withAnchor, if_neg ha]
        refine .document path fun r => ?_
        cases r with
        | error e => exact .answer _
        | ok d =>
            change (if d.hasAnchor a then Inquiry.answer _ else .answer _).AsksDocuments
            split
            · exact .answer _
            · exact .answer _

/-- A link that is not looked for by name asks for documents only. -/
theorem asksDocuments_checkOf (policy : SuggestionPolicy) (d : Document) {l : Link}
    (h : ¬ IsSoughtByName t l) :
    (checkOf t policy d l).AsksDocuments := by
  unfold checkOf
  cases hl : l.target.path with
  | none => exact .answer _
  | some path =>
      cases hdirect : Resolution.direct? t path.raw l.source with
      | error e =>
          have htarget : target t path.raw l.source = .answer (.error e) := by
            rw [target, hdirect]
          simp only [acrossDocuments, htarget]
          exact .answer _
      | ok found =>
          cases found with
          | none => exact absurd ⟨path, hl, hdirect⟩ h
          | some file =>
              have htarget : target t path.raw l.source = .answer (.ok (.found file)) := by
                rw [target, hdirect]
              simp only [acrossDocuments, htarget]
              exact (asksDocuments_withAnchor _ _ _ _).bind fun v => .answer _

end Checking

end Kinds

/-! ### Paths without null characters -/

/-- No path of a link holds a null character: neither that of its document, nor, if files are looked
for by name, that which it is written with, once its percent escapes are decoded. -/
structure Link.IsNullFree (hasScope : Bool) (l : Link) : Prop where
  source : holdsNull l.source = false
  target : hasScope = true → ∀ path, l.target.path = some path → holdsNull (decode path.raw) = false

theorem Link.isNullFree_iff {hasScope : Bool} {l : Link} : l.IsNullFree hasScope ↔
    holdsNull l.source = false ∧ (hasScope = true →
      (l.target.path.all fun path => !holdsNull (decode path.raw)) = true) := by
  simp only [Option.all_eq_true, Bool.not_eq_true']
  exact ⟨fun h => ⟨h.source, h.target⟩, fun h => ⟨h.1, h.2⟩⟩

instance (hasScope : Bool) (l : Link) : Decidable (l.IsNullFree hasScope) :=
  decidable_of_iff' _ Link.isNullFree_iff

/-- A name leads nowhere unless files are looked for by name, and then to a path without null
characters. -/
def Checking.NamedNullFree (hasScope : Bool) (named : Option NameResolution) : Prop :=
  ∀ r, named = some r → hasScope = true ∧ ∀ path, r.path? = some path → holdsNull path = false

/-- **A link without null characters has a verdict**, as long as names are answered with paths
without any. -/
theorem Link.IsNullFree.ensures_checkOf {t : FileTree} (ht : t.LinksHoldNoNull) {hasScope : Bool}
    {l : Link} (hl : l.IsNullFree hasScope) (policy : SuggestionPolicy) (d : Document) :
    (Checking.checkOf t policy d l).Ensures (Checking.NamedNullFree hasScope)
      fun r => ∃ v, r = .ok v := by
  have hof : l.IsOf (fun path => holdsNull path = false) (Checking.NamedNullFree hasScope) :=
    ⟨hl.source, fun r path hr hpath => FileTree.holdsNull_join
      (FileTree.holdsNull_directory hl.source) (hl.target (hr r rfl).1 path hpath)⟩
  exact (Checking.ensures_checkOf ht.failsBy (fun named h r path hr => (h r hr).2 path) d hof).mono
    fun _ => Except.exists_ok

namespace FileIndex

variable {t : FileTree} {i : FileIndex} {scope : String} {e : SearchFailure}

/-- No path of a file in an index holds a null character. -/
def IsNullFree (i : FileIndex) : Prop := ∀ file ∈ i.files, holdsNull file.path = false

theorem exists_scopeRoot_of_isNullFree (ht : t.IsNullFree) (hscope : holdsNull scope = false) :
    ∃ root, scopeRoot t scope = .ok root :=
  ht.links.exists_realPath
    (FileTree.holdsNull_absolute (FileTree.holdsNull_pathTo ht.cwd) hscope)

theorem isNullFree_ofScope (ht : t.IsNullFree) (hscope : holdsNull scope = false) :
    (ofScope t scope).IsNullFree := by
  intro file hfile
  rw [files_ofScope] at hfile
  obtain ⟨names, hnames, rfl⟩ := List.mem_map.1 hfile
  obtain ⟨root, -, hbelow⟩ := exists_of_mem_visited hnames
  obtain ⟨-, ⟨n, hn, hplace⟩, -⟩ := mem_entriesBelow_iff.1 (of_mem_filesBelow hbelow).1
  have hnull : ∀ name ∈ names, holdsNull name = false := fun name hname =>
    ht.names n hn name (by rw [hplace]; exact List.mem_append_right _ hname)
  exact FileTree.holdsNull_join
    (FileTree.holdsNull_absolute (FileTree.holdsNull_pathTo ht.cwd) hscope)
    (FileTree.holdsNull_joinSegments_iff.2 hnull)

theorem IsNullFree.forScope (hi : i.IsNullFree) (ht : t.IsNullFree)
    (hscope : holdsNull scope = false) : (i.forScope t (some scope)).1.IsNullFree := by
  obtain ⟨root, hroot⟩ := exists_scopeRoot_of_isNullFree ht hscope
  rw [FileIndex.forScope, hroot]
  dsimp only
  split
  · exact hi
  · rw [build_of_scopeRoot hroot]
    exact isNullFree_ofScope ht hscope

/-- A scope that has a real path cannot be listed only because a path is too long. -/
theorem exists_tooLong_of_forScope (ht : t.IsNullFree) (hscope : holdsNull scope = false)
    (h : (i.forScope t (some scope)).2 = some e) : ∃ path, e = .tooLong path := by
  obtain ⟨root, hroot⟩ := exists_scopeRoot_of_isNullFree ht hscope
  have htooLong {places : List Place} (h : tooLong? t places = some e) :
      ∃ path, e = .tooLong path := by
    obtain ⟨path, -, rfl⟩ := Option.map_eq_some_iff.1 h
    exact ⟨path, rfl⟩
  rw [FileIndex.forScope, hroot] at h
  dsimp only at h
  split at h
  · cases h
  · obtain ⟨place, hplace, -⟩ := Except.map_eq_ok_iff.1 hroot
    rw [failure?, hplace] at h
    rcases Option.or_eq_some_iff.1 h with h | ⟨-, h⟩
    · exact htooLong h
    · exact htooLong h

end FileIndex

namespace Session

open Checking

variable {s : Session} {t : FileTree} {policy : SuggestionPolicy} {d : Document} {l : Link}
  {links : List Link} {e : SearchFailure}

/-- **No path that a session comes by holds a null character**: none of the tree, of its scope and
of the files that are listed, and none of the links that matters there. -/
structure IsNullFree (t : FileTree) (s : Session) (links : List Link) : Prop where
  tree : t.IsNullFree
  scope : ∀ f, s.finder = some f → holdsNull f.scope = false
  index : ∀ f, s.finder = some f → f.index.IsNullFree
  links : ∀ l ∈ links, l.IsNullFree s.finder.isSome

namespace IsNullFree

theorem exists_tooLong_of_listingFailure? (h : s.IsNullFree t links)
    (he : s.listingFailure? t = some e) : ∃ path, e = .tooLong path := by
  obtain ⟨f, hf, hfail⟩ := Option.bind_eq_some_iff.1 he
  exact FileIndex.exists_tooLong_of_forScope h.tree (h.scope f hf) hfail

protected theorem document (h : s.IsNullFree t links) (path : String) :
    (s.document t path).1.IsNullFree t links :=
  ⟨h.tree, h.scope, h.index, h.links⟩

protected theorem find (h : s.IsNullFree t links) (name : String) :
    (s.find t name).1.IsNullFree t links := by
  unfold find
  cases hf : s.finder with
  | none => exact h
  | some f =>
      have hindex := (h.index f hf).forScope h.tree (h.scope f hf)
      have hlinks := h.links
      rw [hf] at hlinks
      exact ⟨h.tree, fun g hg => by cases hg; exact h.scope f hf,
        fun g hg => by cases hg; exact hindex, hlinks⟩

protected theorem run {α : Type} (h : s.IsNullFree t links) (q : Inquiry α) :
    (s.run t q).1.IsNullFree t links := by
  induction q generalizing s with
  | answer a => exact h
  | document path next ih => exact ih _ (h.document path)
  | file name next ih => exact ih _ (h.find name)

/-- Names lead to paths without null characters, as long as the scope need not be listed in
vain. -/
theorem answersNames (h : s.IsNullFree t links) (hlisted : s.listingFailure? t = none) :
    s.AnswersNames t (NamedNullFree s.finder.isSome) := by
  refine answersNames_of_listed hlisted fun name named hnamed r hr => ?_
  subst hr
  unfold find at hnamed
  split at hnamed
  · cases hnamed
  · rename_i f hf
    dsimp only [FileIndex.resolve] at hnamed
    split at hnamed
    · cases hnamed
    · cases hnamed
      refine ⟨by rw [hf]; rfl, fun path hpath => ?_⟩
      obtain ⟨file, hfile, rfl⟩ := FileIndex.path?_lookUp hpath
      exact (h.index f hf).forScope h.tree (h.scope f hf) file hfile

/-- **Each link has a verdict**, as long as the scope need not be listed in vain. -/
theorem exists_verdict (h : s.IsNullFree t links) (hlisted : s.listingFailure? t = none)
    (policy : SuggestionPolicy) (d : Document) (hl : l ∈ links) :
    ∃ v, (s.run t (checkOf t policy d l)).2 = .ok v :=
  ((h.links l hl).ensures_checkOf h.tree.links policy d).run (h.answersNames hlisted)

/-- A link that is not looked for by name has a verdict in any case. -/
theorem exists_verdict_of_not_isSoughtByName (h : s.IsNullFree t links)
    (policy : SuggestionPolicy) (d : Document) (hl : l ∈ links) (hsought : ¬ IsSoughtByName t l) :
    ∃ v, (s.run t (checkOf t policy d l)).2 = .ok v :=
  ((h.links l hl).ensures_checkOf h.tree.links policy d).run_of_asksDocuments
    (asksDocuments_checkOf policy d hsought)

end IsNullFree

theorem answersNames_any (hlisted : s.listingFailure? t = none) : s.AnswersNames t fun _ => True :=
  answersNames_of_listed hlisted fun _ _ _ => trivial

end Session

end Citations

/-
**An index that is used again and again.**

An index lists one scope at a time.  It may be told to list a scope, or be asked for a name in a
scope, which it then lists unless it lists the same directory already.  Whatever it was told and
asked before, it holds the files of the scope that was listed last, and of no other; so its answers
are about the files of that scope alone.  If it was told to list a scope without a real path, it
holds no files at all, but is still called after the scope before.

That is not to say that it answers as if it was new.  The scope listed last may be another name for
the directory that is asked for, and then the paths of the files begin with that name; and a scope
that could not be listed to its end, or was forgotten, is not listed again, but answered from the
files found so far.

Main definitions:

* `Citations.FileIndex.Request`, `Citations.FileIndex.after` — what an index may be told or asked,
  and the index after some requests;
* `Citations.FileIndex.Held`, `Citations.FileIndex.held` — what an index holds, and what it holds
  after some requests;
* `Citations.FileIndex.AsksFor` — whether a text asks for a file of a name;
* `Citations.FileIndex.Answers` — **what an answer about a scope is like**;
* `Citations.FileIndex.freshly` — the answer of a new index.

Main results:

* `Citations.FileIndex.after_eq_index` — **an index holds the files of the scope listed last**;
* `Citations.FileIndex.resolve_answers` — every answer is about the files of the scope listed last;
* `Citations.FileIndex.resolve_eq_freshly_iff` — **when an index answers as a new one does**;
* `Citations.FileIndex.not_resolve_eq_freshly` — not so for another name of the same directory.
-/

import Citations.Proofs.FileIndex.Listing

set_option relaxedAutoImplicit false
set_option autoImplicit false

namespace Citations

namespace FileIndex

variable {t : FileTree} {scope given asked filename name path root : String} {names : List String}

/-! ### Requests -/

/-- What an index may be told or asked. -/
inductive Request where
  /-- To list a scope. -/
  | build (scope : String)
  /-- What a name leads to, in a scope or in the one that is listed. -/
  | resolve (filename : String) (scope : Option String)

/-- The index after a request. -/
def perform (t : FileTree) (i : FileIndex) : Request → FileIndex
  | .build scope => build t i scope
  | .resolve filename scope => (i.resolve t filename scope).1

/-- **The index after some requests**, which at first lists no scope. -/
def after (t : FileTree) (requests : List Request) : FileIndex := requests.foldl (perform t) empty

/-! ### What an index holds -/

/-- What an index holds. -/
inductive Held where
  /-- Nothing, and it is called after no scope. -/
  | nothing
  /-- The files of a scope. -/
  | files (scope : String)
  /-- Nothing any more, but it is still called after a scope. -/
  | name (scope : String)
  deriving DecidableEq

namespace Held

/-- The scope that an index is called after, as the user gave it. -/
def scope? : Held → Option String
  | .nothing => none
  | .files scope | .name scope => some scope

/-- The real path of that scope. -/
def root? (t : FileTree) (h : Held) : Option String :=
  h.scope?.bind fun scope => (scopeRoot t scope).toOption

/-- What is held after the files were forgotten. -/
def forget : Held → Held
  | .files scope => .name scope
  | h => h

/-- What is held after a question: the scope is listed unless the index is called after it. -/
def ask (t : FileTree) (h : Held) : Option String → Held
  | none => h
  | some scope =>
      match scopeRoot t scope with
      | .error _ => h
      | .ok root => if some root = h.root? t then h else .files scope

/-- What is held after a request. -/
def perform (t : FileTree) (h : Held) : Request → Held
  | .build scope =>
      match scopeRoot t scope with
      | .error _ => h.forget
      | .ok _ => .files scope
  | .resolve _ scope => h.ask t scope

/-- Why a question cannot be answered: the scope has no real path, or it has to be listed, and that
fails. -/
def obstacle? (t : FileTree) (h : Held) : Option String → Option SearchFailure
  | none => none
  | some scope =>
      match scopeRoot t scope with
      | .error e => some e
      | .ok root => if some root = h.root? t then none else failure? t scope

/-- The index that holds this. -/
def index (t : FileTree) : Held → FileIndex
  | .nothing => empty
  | .files scope => ofScope t scope
  | .name scope => { ofScope t scope with files := [] }

/-- The scope that an index is called after has a real path. -/
def IsRooted (t : FileTree) (h : Held) : Prop :=
  ∀ scope, h.scope? = some scope → ∃ root, scopeRoot t scope = .ok root

theorem scope_index (t : FileTree) (h : Held) : (h.index t).scope = h.root? t := by
  cases h with
  | nothing => rfl
  | files scope => exact scope_ofScope t scope
  | name scope => exact scope_ofScope t scope

/-- An index is called after a scope of some root exactly if that is the root of the index. -/
theorem root?_eq_some_iff {h : Held} :
    h.root? t = some root ↔ ∃ scope, h.scope? = some scope ∧ scopeRoot t scope = .ok root := by
  rw [root?, Option.bind_eq_some_iff]
  refine exists_congr fun scope => and_congr_right fun _ => ?_
  cases scopeRoot t scope <;> simp [Except.toOption]

theorem files_index_forget (t : FileTree) (h : Held) :
    h.forget.index t = { h.index t with files := [] } := by
  cases h <;> rfl

/-- A question lists its scope if need be. -/
theorem forScope_index (t : FileTree) (h : Held) (asked : Option String) :
    (h.index t).forScope t asked = ((h.ask t asked).index t, h.obstacle? t asked) := by
  cases asked with
  | none => rfl
  | some scope =>
      simp only [forScope, ask, obstacle?, scope_index]
      cases hroot : scopeRoot t scope with
      | error e => rfl
      | ok root =>
          dsimp only
          split
          · rfl
          · rw [build_of_scopeRoot hroot]
            rfl

/-- **What one request leaves behind** is the index of one scope, or of none. -/
theorem perform_index (t : FileTree) (h : Held) (r : Request) :
    FileIndex.perform t (h.index t) r = (h.perform t r).index t := by
  cases r with
  | build scope =>
      simp only [FileIndex.perform, perform]
      cases hroot : scopeRoot t scope with
      | error e =>
          have hplace : scopePlace t scope = .error e := Except.map_eq_error_iff.1 hroot
          rw [build, hplace]
          exact (files_index_forget t h).symm
      | ok root => exact build_of_scopeRoot hroot _
  | resolve filename scope =>
      rw [FileIndex.perform, resolve, forScope_index]
      rfl

protected theorem IsRooted.ask {h : Held} (hh : h.IsRooted t) (asked : Option String) :
    (h.ask t asked).IsRooted t := by
  cases asked with
  | none => exact hh
  | some scope =>
      simp only [Held.ask]
      cases hroot : scopeRoot t scope with
      | error e => exact hh
      | ok root =>
          dsimp only
          split
          · exact hh
          · intro other hother
            obtain rfl : scope = other := Option.some.inj hother
            exact ⟨root, hroot⟩

protected theorem IsRooted.perform {h : Held} (hh : h.IsRooted t) (r : Request) :
    (h.perform t r).IsRooted t := by
  cases r with
  | build scope =>
      simp only [Held.perform]
      cases hroot : scopeRoot t scope with
      | error e =>
          cases h with
          | files other => exact fun scope hscope => hh scope hscope
          | _ => exact hh
      | ok root =>
          intro other hother
          obtain rfl : scope = other := Option.some.inj hother
          exact ⟨root, hroot⟩
  | resolve filename scope => exact hh.ask scope

end Held

/-- **What an index holds after some requests.** -/
def held (t : FileTree) (requests : List Request) : Held :=
  requests.foldl (Held.perform t) .nothing

/-- **An index holds the files of the scope that was listed last**, whatever was asked. -/
theorem after_eq_index (t : FileTree) (requests : List Request) :
    after t requests = (held t requests).index t := by
  have hrun (h : Held) : requests.foldl (perform t) (h.index t) =
      (requests.foldl (Held.perform t) h).index t := by
    induction requests generalizing h with
    | nil => rfl
    | cons r requests ih => rw [List.foldl_cons, List.foldl_cons, Held.perform_index, ih]
  exact hrun .nothing

theorem isRooted_held (t : FileTree) (requests : List Request) :
    (held t requests).IsRooted t := by
  have hrun (h : Held) (hh : h.IsRooted t) :
      (requests.foldl (Held.perform t) h).IsRooted t := by
    induction requests generalizing h with
    | nil => exact hh
    | cons r requests ih => exact ih _ (hh.perform r)
  exact hrun .nothing fun scope h => by cases h

/-- The answer to a question after some requests. -/
theorem resolve_after (t : FileTree) (requests : List Request) (filename : String)
    (asked : Option String) :
    ((after t requests).resolve t filename asked).2 =
      ((held t requests).obstacle? t asked).elim
        (.ok ((((held t requests).ask t asked).index t).lookUp filename)) .error := by
  rw [after_eq_index, resolve, Held.forScope_index]
  cases (held t requests).obstacle? t asked <;> rfl

theorem held_concat_resolve (t : FileTree) (requests : List Request) (filename : String)
    (asked : Option String) :
    held t (requests ++ [.resolve filename asked]) = (held t requests).ask t asked := by
  rw [held, List.foldl_append]
  rfl

/-! ### A directory with two names -/

/-- A directory with one file, and a link to the directory. -/
def aliased : FileTree where
  cwd := ["w"]
  nodes := [(["w"], .directory), (["w", "real"], .directory),
    (["w", "real", "guide.md"], .file []), (["w", "vault"], .link "real")]

theorem isNamed_aliased : aliased.IsNamed where
  cwd := by simp [aliased, FileTree.IsPlace, Path.IsName]
  places := by simp [aliased, FileTree.IsPlace, Path.IsName]

theorem entriesBelow_aliased : entriesBelow aliased ["w", "real"] = [["guide.md"]] := by
  have hentries : (aliased.nodes.filterMap fun n =>
      if ["w", "real"].isPrefixOf n.1 && ["w", "real"] != n.1 &&
          n.1.getLast?.any hasExtension then
        some (n.1.drop 2)
      else none) = [["guide.md"]] := by decide +kernel
  exact (congrArg (List.mergeSort · comesFirst) hentries).trans (List.mergeSort_singleton _)

theorem failure?_aliased (h : scopePlace aliased scope = .ok ["w", "real"]) :
    failure? aliased scope = none := by
  rw [failure?, h]
  dsimp only
  rw [entryFailure?, entriesBelow_aliased]
  decide +kernel

theorem ofScope_aliased (h : scopePlace aliased scope = .ok ["w", "real"]) :
    ofScope aliased scope =
      ⟨some "/w/real", [⟨"guide.md", Path.join (givenScope aliased scope) "guide.md"⟩]⟩ := by
  have hfiles : filesBelow aliased ["w", "real"] = [["guide.md"]] := by
    rw [filesBelow, entriesBelow_aliased]
    decide +kernel
  rw [ofScope, build, h]
  dsimp only
  rw [hfiles]
  rfl

/-! ### What is answered -/

/-- Whether a text asks for a file of a name: it ends in the name behind any directories, or in the
name without its extension, if no other one is left. -/
def AsksFor (filename name : String) : Prop :=
  ∃ asked, (filename = asked ∨ ∃ directories, filename = directories ++ "/" ++ asked) ∧
    (asked = name ∨ hasExtension asked = false ∧ asked ++ extension = name)

/-- **What an answer about a scope is like.** -/
structure Answers (t : FileTree) (scope filename : String) (r : NameResolution) : Prop where
  /-- Listing a scope that can be listed comes by all files in its root, and in the directories
  below that, that are called like Markdown files. -/
  listed : ∀ root, scopePlace t scope = .ok root → failure? t scope = none → ∀ names,
    names ∈ visited t scope ↔ names ≠ [] ∧ (∃ n ∈ t.nodes, n.1 = root ++ names) ∧
      names.getLast?.any hasExtension = true ∧ t.isFile (FileTree.pathTo (root ++ names)) = true
  /-- What is found is a file that listing the scope comes by, and the only one of its name. -/
  found : ∀ path, r.path? = some path → ∃ names,
    namesakes t scope (Path.fileName path) = [names] ∧ path = pathIn t scope names
  /-- A name that several files have leads to none of them, however it is come by. -/
  never : ∀ name path, 2 ≤ (namesakes t scope name).length → r.path? = some path →
    Path.fileName path ≠ name
  /-- To ask for such a name is to be told so. -/
  ambiguous : ∀ name, 2 ≤ (namesakes t scope name).length → AsksFor filename name →
    r = .ambiguous name
  /-- To ask for a name that one file has is to be given that file. -/
  direct : ∀ name names, namesakes t scope name = [names] → AsksFor filename name →
    r = .direct (pathIn t scope names)

theorem fileName_of_asksFor (hname : '/' ∉ name.toList) (h : AsksFor filename name) :
    Path.fileName filename = name ∨
      hasExtension (Path.fileName filename) = false ∧
        withExtension (Path.fileName filename) = name := by
  obtain ⟨asked, hfilename, hasked⟩ := h
  have hslash : '/' ∉ asked.toList := by
    rcases hasked with rfl | ⟨-, rfl⟩
    · exact hname
    · exact fun hmem => hname (by simp [hmem])
  have hlast : Path.fileName filename = asked := by
    rcases hfilename with rfl | ⟨directories, rfl⟩
    · exact Path.fileName_of_slash_notMem hslash
    · exact Path.fileName_append_slash directories hslash
  rw [hlast]
  exact hasked.imp id fun ⟨hext, heq⟩ => ⟨hext, by rw [withExtension_of_not_hasExtension hext, heq]⟩

/-- Who asks for a name that is known is answered from the files of that name. -/
theorem lookUp_ofScope_of_asksFor (ht : t.IsNamed) (hknown : namesakes t scope name ≠ [])
    (h : AsksFor filename name) :
    (ofScope t scope).lookUp filename = (ofScope t scope).answerFor name .direct := by
  obtain ⟨names, hnames⟩ := List.exists_mem_of_ne_nil _ hknown
  have hslash : '/' ∉ name.toList := by
    rw [← ht.fileName_pathIn hnames]
    exact Path.slash_notMem_fileName _
  have hcount : 0 < (ofScope t scope).count name := by
    rw [count_ofScope]
    exact List.length_pos_iff.2 hknown
  rcases fileName_of_asksFor hslash h with rfl | ⟨hext, rfl⟩
  · exact lookUp_of_known hcount
  · exact lookUp_of_known_withExtension (count_ofScope_of_not_hasExtension t scope hext) hcount

/-- What is found in the index of a scope is the only file of its name. -/
theorem namesakes_of_lookUp_ofScope (ht : t.IsNamed)
    (h : ((ofScope t scope).lookUp filename).path? = some path) :
    ∃ names, namesakes t scope (Path.fileName path) = [names] ∧ path = pathIn t scope names := by
  obtain ⟨name, file, hfiles, rfl⟩ := exists_unique_of_lookUp h
  rw [filter_files_ofScope] at hfiles
  obtain ⟨names, hnames, rfl⟩ := List.map_eq_singleton_iff.1 hfiles
  have hmem : names ∈ namesakes t scope name := by rw [hnames]; exact List.mem_singleton_self _
  refine ⟨names, ?_, rfl⟩
  rw [ht.fileName_pathIn hmem, hnames]

/-- **The answers from the index of a scope.** -/
theorem answers_lookUp_ofScope (ht : t.IsNamed) (scope filename : String) :
    Answers t scope filename ((ofScope t scope).lookUp filename) where
  listed root hplace hlisted names := mem_visited_iff hplace hlisted
  found path h := namesakes_of_lookUp_ofScope ht h
  never name path hmany h := by
    rintro rfl
    obtain ⟨names, hnames, -⟩ := namesakes_of_lookUp_ofScope ht h
    rw [hnames] at hmany
    exact absurd hmany (by simp)
  ambiguous name hmany hasks := by
    have hknown : namesakes t scope name ≠ [] := by
      intro h
      rw [h] at hmany
      exact absurd hmany (by simp)
    rw [lookUp_ofScope_of_asksFor ht hknown hasks]
    exact answerFor_of_many (by rwa [count_ofScope])
  direct name names hone hasks := by
    rw [lookUp_ofScope_of_asksFor ht (by rw [hone]; exact List.cons_ne_nil _ _) hasks]
    have hfiles : (ofScope t scope).files.filter (·.name = name) =
        [⟨name, pathIn t scope names⟩] := by
      rw [filter_files_ofScope, hone]
      rfl
    rw [answerFor_of_unique hfiles]

/-- **Every answer is about the files of the scope that is listed last**, with the question itself
among the requests; there is no answer only if the scope has no real path, or has to be listed for
the question and cannot be.  If no files are held, none is found. -/
theorem resolve_answers (ht : t.IsNamed) (requests : List Request) (filename : String)
    (asked : Option String) :
    ∃ r, ((after t requests).resolve t filename asked).2 =
        ((held t requests).obstacle? t asked).elim (.ok r) .error ∧
      (∀ scope, held t (requests ++ [.resolve filename asked]) = .files scope →
        Answers t scope filename r) ∧
      ((∀ scope, held t (requests ++ [.resolve filename asked]) ≠ .files scope) →
        r = .missing (Path.fileName filename)) := by
  refine ⟨_, resolve_after t requests filename asked, ?_⟩
  rw [held_concat_resolve]
  generalize (held t requests).ask t asked = h
  refine ⟨fun scope hscope => ?_, fun hnone => ?_⟩
  · rw [hscope]
    exact answers_lookUp_ofScope ht scope filename
  · refine lookUp_of_files_eq_nil ?_
    cases h with
    | files scope => exact absurd rfl (hnone scope)
    | _ => rfl

/-- A file is found behind a directory and without its extension, below the scope listed before;
once that is forgotten, it is not found any more. -/
theorem resolve_answers_aliased :
    aliased.IsNamed ∧
      (∃ r, ((after aliased [.build "vault"]).resolve aliased "docs/guide" (some "real")).2 =
          .ok r ∧
        Answers aliased "vault" "docs/guide" r) ∧
      ((after aliased [.build "vault", .build "va\x00ult"]).resolve aliased "docs/guide" none).2 =
        .ok (.missing "guide") := by
  refine ⟨isNamed_aliased, ?_, ?_⟩
  · obtain ⟨r, hr, hanswers, -⟩ :=
      resolve_answers isNamed_aliased [.build "vault"] "docs/guide" (some "real")
    have hlisted : (held aliased [.build "vault"]).obstacle? aliased (some "real") = none := by
      decide +kernel
    rw [hlisted] at hr
    exact ⟨r, hr, hanswers "vault" (by decide +kernel)⟩
  · obtain ⟨r, hr, -, hmissing⟩ := resolve_answers isNamed_aliased
      [.build "vault", .build "va\x00ult"] "docs/guide" none
    have hheld : held aliased ([.build "vault", .build "va\x00ult"] ++
        [.resolve "docs/guide" none]) = .name "vault" := by decide +kernel
    obtain rfl : r = .missing (Path.fileName "docs/guide") :=
      hmissing fun scope => by rw [hheld]; exact Held.noConfusion
    rw [hr]
    decide +kernel

/-! ### As if the index was new -/

/-- The answer of a new index of a scope. -/
def freshly (t : FileTree) (filename scope : String) : Except SearchFailure NameResolution :=
  (failure? t scope).elim (.ok ((ofScope t scope).lookUp filename)) .error

/-- Scopes of one root have one place. -/
theorem exists_scopePlace_of_scopeRoot (ht : t.IsNamed) (hgiven : scopeRoot t given = .ok root)
    (hasked : scopeRoot t asked = .ok root) :
    ∃ place, scopePlace t given = .ok place ∧ scopePlace t asked = .ok place := by
  obtain ⟨p, hp, rfl⟩ := Except.map_eq_ok_iff.1 hgiven
  obtain ⟨q, hq, hsame⟩ := Except.map_eq_ok_iff.1 hasked
  obtain rfl : q = p :=
    FileTree.pathTo_inj (ht.isPlace_of_realPlace hq) (ht.isPlace_of_realPlace hp) hsame
  exact ⟨q, hp, hq⟩

/-- Two scopes of one root are answered in the same way, but for what stands in front of a path. -/
theorem exists_lookUp_ofScope_eq (ht : t.IsNamed) (hgiven : scopeRoot t given = .ok root)
    (hasked : scopeRoot t asked = .ok root) (filename : String) :
    ∃ place, scopePlace t asked = .ok place ∧
      (ofScope t given).lookUp filename = ((below t place).lookUp filename).mapPath
        (Path.join (givenScope t given)) ∧
      (ofScope t asked).lookUp filename = ((below t place).lookUp filename).mapPath
        (Path.join (givenScope t asked)) := by
  obtain ⟨place, hp, hq⟩ := exists_scopePlace_of_scopeRoot ht hgiven hasked
  refine ⟨place, hq, ?_, ?_⟩
  · rw [ofScope_eq hp, lookUp_mapPaths]
  · rw [ofScope_eq hq, lookUp_mapPaths]

/-- So they are answered alike exactly if they are the same in normal form, or there is no path. -/
theorem lookUp_ofScope_eq_iff (ht : t.IsNamed) (hgiven : scopeRoot t given = .ok root)
    (hasked : scopeRoot t asked = .ok root) (filename : String) :
    (ofScope t given).lookUp filename = (ofScope t asked).lookUp filename ↔
      givenScope t given = givenScope t asked ∨
        ((ofScope t asked).lookUp filename).path? = none := by
  obtain ⟨place, hplace, hsameGiven, hsameAsked⟩ :=
    exists_lookUp_ofScope_eq ht hgiven hasked filename
  rw [hsameGiven, hsameAsked, NameResolution.mapPath_eq_iff, NameResolution.path?_mapPath,
    Option.map_eq_none_iff]
  cases hpath : ((below t place).lookUp filename).path? with
  | none => simp
  | some path =>
      simp only [Option.some.injEq, forall_eq', reduceCtorEq, or_false]
      constructor
      · intro hjoin
        obtain ⟨file, hfile, rfl⟩ := path?_lookUp hpath
        obtain ⟨names, hnames, rfl⟩ := List.mem_map.1 hfile
        have hvisited : names ∈ visited t asked := by rwa [visited, hplace]
        exact (ht.givenScope_eq_of_pathIn_eq hvisited hjoin.symm).symm
      · intro hscope
        rw [hscope]

theorem ok_eq_freshly_iff {r : NameResolution} : .ok r = freshly t filename asked ↔
    failure? t asked = none ∧ r = (ofScope t asked).lookUp filename := by
  rw [freshly]
  cases failure? t asked <;> simp

/-- A scope of the root that an index is called after is not listed again. -/
theorem Held.kept_of_called {h : Held} (hgiven : h.scope? = some given)
    (hroot : scopeRoot t given = .ok root) (hasked : scopeRoot t asked = .ok root) :
    h.obstacle? t (some asked) = none ∧ h.ask t (some asked) = h := by
  have hroot? : some root = h.root? t := (root?_eq_some_iff.2 ⟨given, hgiven, hroot⟩).symm
  simp only [obstacle?, ask, hasked, if_pos hroot?, and_self]

/-- A scope of another root is listed, so that it is answered as by a new index. -/
theorem Held.answer_eq_freshly {h : Held}
    (hother : ∀ given, h.scope? = some given → scopeRoot t given ≠ scopeRoot t asked) :
    (h.obstacle? t (some asked)).elim (.ok (((h.ask t (some asked)).index t).lookUp filename))
      .error = freshly t filename asked := by
  simp only [obstacle?, ask]
  cases hasked : scopeRoot t asked with
  | error e =>
      have hplace : scopePlace t asked = .error e := Except.map_eq_error_iff.1 hasked
      rw [freshly, failure?, hplace]
      rfl
  | ok root =>
      have hroot? : some root ≠ h.root? t := by
        intro hroot?
        obtain ⟨given, hgiven, hroot⟩ := root?_eq_some_iff.1 hroot?.symm
        exact hother given hgiven (hroot.trans hasked.symm)
      simp only [if_neg hroot?]
      rfl

/-- **When an index answers as a new one does**: unless it is called after a scope of the same root
as the one that is asked for.  If it still holds the files of that scope, the answer is the same but
for what stands in front of the path that is found; if not, nothing is found.  Either is answered
even if the scope cannot be listed. -/
theorem resolve_eq_freshly_iff (ht : t.IsNamed) (requests : List Request)
    (filename asked : String) :
    (((after t requests).resolve t filename (some asked)).2 = freshly t filename asked ↔
      ∀ given, (held t requests).scope? = some given → scopeRoot t given = scopeRoot t asked →
        failure? t asked = none ∧
          (held t requests = .files given ∧ (givenScope t given = givenScope t asked ∨
              ((ofScope t asked).lookUp filename).path? = none) ∨
            (ofScope t asked).lookUp filename = .missing (Path.fileName filename))) ∧
    (∀ given, held t requests = .files given → scopeRoot t given = scopeRoot t asked →
      ∃ r : NameResolution,
        ((after t requests).resolve t filename (some asked)).2 =
          .ok (r.mapPath (Path.join (givenScope t given))) ∧
        (ofScope t asked).lookUp filename = r.mapPath (Path.join (givenScope t asked))) ∧
    ∀ given, held t requests = .name given → scopeRoot t given = scopeRoot t asked →
      ((after t requests).resolve t filename (some asked)).2 =
        .ok (.missing (Path.fileName filename)) := by
  have hrooted := isRooted_held t requests
  rw [resolve_after]
  generalize held t requests = h at hrooted ⊢
  by_cases hcalled : ∃ given, h.scope? = some given ∧ scopeRoot t given = scopeRoot t asked
  · -- the index is called after a scope of this root already
    obtain ⟨given, hgiven, hsame⟩ := hcalled
    obtain ⟨root, hroot⟩ := hrooted given hgiven
    have hasked : scopeRoot t asked = .ok root := hsame ▸ hroot
    obtain ⟨hobstacle, hkept⟩ := Held.kept_of_called hgiven hroot hasked
    rw [hobstacle, hkept, Option.elim_none, ok_eq_freshly_iff]
    cases h with
    | nothing => cases hgiven
    | files scope =>
        obtain rfl : scope = given := Option.some.inj hgiven
        obtain ⟨place, -, hlookUp, hfresh⟩ := exists_lookUp_ofScope_eq ht hroot hasked filename
        refine ⟨?_, fun other hother _ => ?_, fun other hother => by cases hother⟩
        · have hmissing : (ofScope t asked).lookUp filename = .missing (Path.fileName filename) →
              ((ofScope t asked).lookUp filename).path? = none := fun h => by rw [h]; rfl
          rw [Held.index, lookUp_ofScope_eq_iff ht hroot hasked]
          simp only [Held.scope?, Option.some.injEq, forall_eq', hsame, forall_const, true_and]
          refine and_congr_right fun _ => ⟨.inl, ?_⟩
          rintro (h | h)
          · exact h
          · exact .inr (hmissing h)
        · obtain rfl : scope = other := Held.files.inj hother
          exact ⟨_, congrArg _ hlookUp, hfresh⟩
    | name scope =>
        obtain rfl : scope = given := Option.some.inj hgiven
        have hforgotten : (Held.index t (.name scope)).lookUp filename =
            .missing (Path.fileName filename) := lookUp_of_files_eq_nil rfl
        rw [hforgotten]
        refine ⟨?_, fun other hother _ => Held.noConfusion hother, fun other _ _ => rfl⟩
        simp only [Held.scope?, Option.some.injEq, forall_eq', hsame, forall_const, reduceCtorEq,
          false_and, false_or]
        exact and_congr_right fun _ => eq_comm
  · -- the scope is listed anew, if it has a root
    have hother (given : String) (hgiven : h.scope? = some given) :
        scopeRoot t given ≠ scopeRoot t asked := fun hsame => hcalled ⟨given, hgiven, hsame⟩
    refine ⟨⟨fun _ given hgiven hsame => (hother given hgiven hsame).elim,
        fun _ => Held.answer_eq_freshly hother⟩,
      fun given hgiven hsame => (hother given (by rw [hgiven]; rfl) hsame).elim,
      fun given hgiven hsame => (hother given (by rw [hgiven]; rfl) hsame).elim⟩

/-- The same scope is answered as by a new index, however it is written. -/
theorem resolve_eq_freshly_aliased :
    aliased.IsNamed ∧
      ((after aliased [.build "vault"]).resolve aliased "guide.md" (some "./vault")).2 =
        freshly aliased "guide.md" "./vault" := by
  refine ⟨isNamed_aliased, (resolve_eq_freshly_iff isNamed_aliased _ _ _).1.2 ?_⟩
  have hheld : held aliased [.build "vault"] = .files "vault" := by decide +kernel
  intro given hgiven _
  rw [hheld] at hgiven ⊢
  obtain rfl : "vault" = given := Option.some.inj hgiven
  exact ⟨failure?_aliased (by decide +kernel), .inl ⟨rfl, .inl (by decide +kernel)⟩⟩

/-- **The path of a file may begin with another name of its directory**, which was listed before. -/
theorem not_resolve_eq_freshly :
    ¬ ∀ (t : FileTree) (requests : List Request) (filename asked : String), t.IsNamed →
      ((after t requests).resolve t filename (some asked)).2 = freshly t filename asked := by
  intro h
  have hvault : scopePlace aliased "vault" = .ok ["w", "real"] := by decide +kernel
  have hreal : scopePlace aliased "real" = .ok ["w", "real"] := by decide +kernel
  have hheld : held aliased [.build "vault"] = .files "vault" := by decide +kernel
  have hlisted : (Held.files "vault").obstacle? aliased (some "real") = none := by decide +kernel
  have hkept : (Held.files "vault").ask aliased (some "real") = .files "vault" := by
    decide +kernel
  have hanswer : ((after aliased [.build "vault"]).resolve aliased "guide.md" (some "real")).2 =
      .ok (.direct "/w/vault/guide.md") := by
    rw [resolve_after, hheld, hlisted, hkept, Held.index, ofScope_aliased hvault]
    decide +kernel
  have hfresh : freshly aliased "guide.md" "real" = .ok (.direct "/w/real/guide.md") := by
    rw [freshly, failure?_aliased hreal, ofScope_aliased hreal]
    decide +kernel
  have hsame := h aliased [.build "vault"] "guide.md" "real" isNamed_aliased
  rw [hanswer, hfresh] at hsame
  exact absurd hsame (by decide)

end FileIndex

end Citations

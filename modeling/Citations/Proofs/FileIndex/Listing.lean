/-
**The files that listing a scope comes by.**

Listing a scope looks for Markdown files below its root, which is found through links, and gives
their paths below the scope as the user gives it.  So the names and the places of the files are
those of the root, whatever the scope is called; only what stands in front of the paths is not.

Main definitions:

* `Citations.FileIndex.visited`, `Citations.FileIndex.namesakes` — the files that listing a scope
  comes by, and those of one name;
* `Citations.FileIndex.pathIn` — the path of such a file;
* `Citations.FileIndex.below` — the files of a directory, with the paths that lead there from it.

Main results:

* `Citations.FileIndex.mem_visited_iff` — **the files of a scope that can be listed** are all files
  below its root that are called like Markdown files;
* `Citations.FileIndex.filter_files_ofScope` — the files of one name in the index of a scope;
* `Citations.FileTree.IsNamed.fileName_pathIn` — the path of a file ends in its name;
* `Citations.FileIndex.ofScope_eq` — two scopes of one root have the same files but for what stands
  in front of their paths.
-/

import Citations.Proofs.FileIndex.Lookup
import Citations.Proofs.FileTree.Naming

set_option relaxedAutoImplicit false
set_option autoImplicit false

namespace Citations

namespace FileIndex

open Citations.Path (joinSegments)

variable {t : FileTree} {root : Place} {names : List String} {scope name : String}

/-! ### What is below a directory -/

/-- The entries of a directory that are called like Markdown files. -/
theorem mem_entriesBelow_iff :
    names ∈ entriesBelow t root ↔
      names ≠ [] ∧ (∃ n ∈ t.nodes, n.1 = root ++ names) ∧
        names.getLast?.any hasExtension = true := by
  have hlast (h : names ≠ []) : (root ++ names).getLast? = names.getLast? := by
    rw [List.getLast?_append, List.getLast?_eq_some_getLast h, Option.some_or]
  rw [entriesBelow, (List.mergeSort_perm _ _).mem_iff]
  constructor
  · intro h
    obtain ⟨n, hn, hnames⟩ := List.mem_filterMap.1 h
    split at hnames
    · rename_i hbelow
      simp only [Bool.and_eq_true, bne_iff_ne] at hbelow
      obtain ⟨⟨hstart, hne⟩, hext⟩ := hbelow
      obtain ⟨rest, hrest⟩ := List.isPrefixOf_iff_prefix.1 hstart
      obtain rfl : rest = names := by rw [← Option.some.inj hnames, ← hrest, List.drop_left]
      have hempty : rest ≠ [] := fun h => hne (by rw [← hrest, h, List.append_nil])
      exact ⟨hempty, ⟨n, hn, hrest.symm⟩, by rwa [← hlast hempty, hrest]⟩
    · cases hnames
  · rintro ⟨hne, ⟨n, hn, hplace⟩, hext⟩
    refine List.mem_filterMap.2 ⟨n, hn, ?_⟩
    have hroot : root ≠ root ++ names := fun h => hne (List.append_right_eq_self.1 h.symm)
    rw [hplace, hlast hne, if_pos, List.drop_left]
    simp [hroot, hext, List.isPrefixOf_iff_prefix]

/-- The files of a directory are among its entries. -/
theorem of_mem_filesBelow (h : names ∈ filesBelow t root) :
    names ∈ entriesBelow t root ∧ t.isFile (FileTree.pathTo (root ++ names)) = true := by
  unfold filesBelow at h
  dsimp only at h
  split at h
  · cases h
  · obtain ⟨hentry, hfile⟩ := List.mem_filter.1 h
    exact ⟨(List.takeWhile_sublist _).subset hentry, hfile⟩

/-- A directory whose entries can be gone through is listed to its end. -/
theorem mem_filesBelow_iff (hscan : scanFailure? t root = none)
    (hentries : entryFailure? t root = none) :
    names ∈ filesBelow t root ↔
      names ∈ entriesBelow t root ∧ t.isFile (FileTree.pathTo (root ++ names)) = true := by
  have hfollowed : ∀ names ∈ entriesBelow t root,
      (!isTooLong t (FileTree.pathTo (root ++ names))) = true := by
    intro names hnames
    rw [entryFailure?, tooLong?, Option.map_eq_none_iff, List.find?_eq_none] at hentries
    have hshort := hentries _ (List.mem_map.2 ⟨_, List.mem_map.2 ⟨names, hnames, rfl⟩, rfl⟩)
    simpa using hshort
  rw [filesBelow, hscan]
  dsimp only
  rw [if_neg (by simp), List.takeWhile_eq_self_iff.2 hfollowed, List.mem_filter]

/-! ### The files of a scope -/

/-- **The files that listing a scope comes by**, as names that lead to them from the root of the
scope: none if the directories cannot be gone through, and else those up to an entry that cannot be
followed. -/
def visited (t : FileTree) (scope : String) : List (List String) :=
  match scopePlace t scope with
  | .error _ => []
  | .ok root => filesBelow t root

/-- The files of a name that listing a scope comes by. -/
def namesakes (t : FileTree) (scope name : String) : List (List String) :=
  (visited t scope).filter (·.getLast? = some name)

/-- The path of a file of a scope, below the scope as the user gives it. -/
def pathIn (t : FileTree) (scope : String) (names : List String) : String :=
  Path.join (givenScope t scope) (joinSegments names)

theorem mem_namesakes_iff :
    names ∈ namesakes t scope name ↔ names ∈ visited t scope ∧ names.getLast? = some name := by
  rw [namesakes, List.mem_filter, decide_eq_true_iff]

/-- **The files of a scope that can be listed**: all files in its root, and in the directories below
that, that are called like Markdown files. -/
theorem mem_visited_iff (hplace : scopePlace t scope = .ok root) (h : failure? t scope = none) :
    names ∈ visited t scope ↔
      names ≠ [] ∧ (∃ n ∈ t.nodes, n.1 = root ++ names) ∧
        names.getLast?.any hasExtension = true ∧
          t.isFile (FileTree.pathTo (root ++ names)) = true := by
  simp only [failure?, hplace, Option.or_eq_none_iff] at h
  simp only [visited, hplace]
  rw [mem_filesBelow_iff h.1 h.2, mem_entriesBelow_iff, and_assoc, and_assoc]

theorem exists_of_mem_visited (h : names ∈ visited t scope) :
    ∃ root, scopePlace t scope = .ok root ∧ names ∈ filesBelow t root := by
  unfold visited at h
  split at h
  · cases h
  · rename_i root hplace
    exact ⟨root, hplace, h⟩

theorem ne_nil_of_mem_visited (h : names ∈ visited t scope) : names ≠ [] := by
  obtain ⟨root, -, hnames⟩ := exists_of_mem_visited h
  exact (mem_entriesBelow_iff.1 (of_mem_filesBelow hnames).1).1

/-- The files in the index of a scope. -/
theorem files_ofScope (t : FileTree) (scope : String) :
    (ofScope t scope).files =
      (visited t scope).map fun names => ⟨names.getLast?.getD "", pathIn t scope names⟩ := by
  unfold ofScope build visited
  cases scopePlace t scope <;> rfl

/-- The files of a name in the index of a scope. -/
theorem filter_files_ofScope (t : FileTree) (scope name : String) :
    (ofScope t scope).files.filter (·.name = name) =
      (namesakes t scope name).map fun names => ⟨name, pathIn t scope names⟩ := by
  have hname : ∀ names ∈ visited t scope,
      decide (names.getLast?.getD "" = name) = decide (names.getLast? = some name) := by
    intro names hnames
    rw [List.getLast?_eq_some_getLast (ne_nil_of_mem_visited hnames), Option.getD_some]
    simp only [Option.some.injEq]
  rw [files_ofScope, List.filter_map]
  refine (congrArg _ (List.filter_congr hname)).trans (List.map_congr_left fun names hnames => ?_)
  rw [(mem_namesakes_iff.1 hnames).2]
  rfl

theorem count_ofScope (t : FileTree) (scope name : String) :
    (ofScope t scope).count name = (namesakes t scope name).length := by
  rw [count_eq_length_filter, filter_files_ofScope, List.length_map]

/-- All files of a scope are called like Markdown files. -/
theorem count_ofScope_of_not_hasExtension (t : FileTree) (scope : String)
    (h : hasExtension name = false) : (ofScope t scope).count name = 0 := by
  rw [count_ofScope, List.length_eq_zero_iff, List.eq_nil_iff_forall_not_mem]
  intro names hnames
  obtain ⟨hvisited, hlast⟩ := mem_namesakes_iff.1 hnames
  obtain ⟨root, -, hfiles⟩ := exists_of_mem_visited hvisited
  have hext := (mem_entriesBelow_iff.1 (of_mem_filesBelow hfiles).1).2.2
  rw [hlast, Option.any_some, h] at hext
  cases hext

/-! ### The same files below another scope -/

/-- The files of a directory, with the paths that lead there from it. -/
def below (t : FileTree) (root : Place) : FileIndex where
  scope := some (FileTree.pathTo root)
  files := (filesBelow t root).map fun names => ⟨names.getLast?.getD "", joinSegments names⟩

/-- **The files of a scope are those of its root**, with the scope in front of their paths. -/
theorem ofScope_eq (hplace : scopePlace t scope = .ok root) :
    ofScope t scope = (below t root).mapPaths (Path.join (givenScope t scope)) := by
  rw [ofScope, build, hplace, mapPaths, below, List.map_map]
  rfl

end FileIndex

namespace FileTree.IsNamed

open FileIndex

variable {t : FileTree} {root : Place} {names : List String} {a b scope name : String}

/-- The names that lead to a file of a directory can be told from their path. -/
theorem isPlace_of_mem_filesBelow (ht : t.IsNamed) (h : names ∈ filesBelow t root) :
    IsPlace names := by
  obtain ⟨-, ⟨n, hn, hplace⟩, -⟩ := mem_entriesBelow_iff.1 (of_mem_filesBelow h).1
  exact (hplace ▸ ht.places n hn).of_append_right

theorem isPlace_of_mem_visited (ht : t.IsNamed) (h : names ∈ visited t scope) :
    IsPlace names := by
  obtain ⟨root, -, hnames⟩ := exists_of_mem_visited h
  exact ht.isPlace_of_mem_filesBelow hnames

/-- **The path of a file ends in its name.** -/
theorem fileName_pathIn (ht : t.IsNamed) (h : names ∈ namesakes t scope name) :
    Path.fileName (pathIn t scope names) = name := by
  obtain ⟨hvisited, hlast⟩ := mem_namesakes_iff.1 h
  have hnames := ht.isPlace_of_mem_visited hvisited
  obtain ⟨init, rfl⟩ := List.getLast?_eq_some_iff.1 hlast
  exact FileTree.fileName_join ht.cwd hnames

/-- **The path of a file tells what stands in front of it.** -/
theorem givenScope_eq_of_pathIn_eq (ht : t.IsNamed) (hnames : names ∈ visited t a)
    (h : pathIn t a names = pathIn t b names) : givenScope t a = givenScope t b :=
  FileTree.eq_of_join_eq ht.cwd (ht.isPlace_of_mem_visited hnames)
    (ne_nil_of_mem_visited hnames) h

end FileTree.IsNamed

end Citations

/-
**What a name leads to among the files of an index.**

However a name is looked up, as it is, with its extension added, with one extension less or as a
misspelling, it is answered from the files of one name, and only if there is one such file.  So what
a name leads to depends on the names of the files alone; the paths are carried along.

Main definitions:

* `Citations.NameResolution.mapPath`, `Citations.FileIndex.mapPaths` — the same answer and the same
  index with other paths.

Main results:

* `Citations.FileIndex.exists_unique_of_lookUp` — **only a name that one file has leads to a file**;
* `Citations.FileIndex.lookUp_of_known`, `Citations.FileIndex.lookUp_of_known_withExtension` — a
  name that is known is answered directly, also without its extension;
* `Citations.FileIndex.lookUp_mapPaths` — **names are looked up without regard to paths**.
-/

import Citations.FileIndex

set_option relaxedAutoImplicit false
set_option autoImplicit false

namespace Citations

/-- The same answer with another path. -/
def NameResolution.mapPath (f : String → String) : NameResolution → NameResolution
  | .direct path => .direct (f path)
  | .fixedExtension fixed path => .fixedExtension fixed (f path)
  | .similar found asked path => .similar found asked (f path)
  | .ambiguous name => .ambiguous name
  | .missing name => .missing name

theorem NameResolution.path?_mapPath (f : String → String) (r : NameResolution) :
    (r.mapPath f).path? = r.path?.map f := by
  cases r <;> rfl

/-- Other paths make another answer only where there is a path. -/
theorem NameResolution.mapPath_eq_iff {f g : String → String} {r : NameResolution} :
    r.mapPath f = r.mapPath g ↔ ∀ path, r.path? = some path → f path = g path := by
  cases r <;> simp [mapPath, path?]

namespace FileIndex

variable {i : FileIndex} {file : IndexedFile} {name filename path : String}
  {answer : String → NameResolution} {f : String → String}

/-! ### Names that one file has -/

theorem count_eq_length_filter (i : FileIndex) (name : String) :
    i.count name = (i.files.filter (·.name = name)).length := List.countP_eq_length_filter

theorem answerFor_of_unique (h : i.files.filter (·.name = name) = [file]) :
    i.answerFor name answer = answer file.path := by rw [answerFor, h]

theorem answerFor_of_many (h : 2 ≤ i.count name) : i.answerFor name answer = .ambiguous name := by
  rw [count_eq_length_filter] at h
  unfold answerFor
  split
  · rename_i hfiles
    rw [hfiles] at h
    exact absurd h (by simp)
  · rename_i hfiles
    rw [hfiles] at h
    exact absurd h (by simp)
  · rfl

/-- An answer with a path is about the one file of a name. -/
theorem exists_unique_of_answerFor (hanswer : ∀ p, (answer p).path? = some p)
    (h : (i.answerFor name answer).path? = some path) :
    ∃ file, i.files.filter (·.name = name) = [file] ∧ file.path = path := by
  unfold answerFor at h
  split at h
  · rename_i file hfiles
    rw [hanswer] at h
    exact ⟨file, hfiles, Option.some.inj h⟩
  · cases h
  · cases h

/-- **Only a name that one file has leads to a file**, whichever way it is found. -/
theorem exists_unique_of_lookUp (h : (i.lookUp filename).path? = some path) :
    ∃ name file, i.files.filter (·.name = name) = [file] ∧ file.path = path := by
  unfold lookUp at h
  dsimp only at h
  split at h
  · exact ⟨_, exists_unique_of_answerFor (fun _ => rfl) h⟩
  · split at h
    · exact ⟨_, exists_unique_of_answerFor (fun _ => rfl) h⟩
    · split at h
      · exact ⟨_, exists_unique_of_answerFor (fun _ => rfl) h⟩
      · cases h

/-- A name leads to a file of the index, if it leads anywhere. -/
theorem path?_lookUp (h : (i.lookUp filename).path? = some path) :
    ∃ file ∈ i.files, file.path = path := by
  obtain ⟨name, file, hfiles, hpath⟩ := exists_unique_of_lookUp h
  have hmem : file ∈ i.files.filter (·.name = name) := by rw [hfiles]; simp
  exact ⟨file, (List.mem_filter.1 hmem).1, hpath⟩

/-- A name that is known is answered from the files of that name. -/
theorem lookUp_of_known (h : 0 < i.count (Path.fileName filename)) :
    i.lookUp filename = i.answerFor (Path.fileName filename) .direct := by
  unfold lookUp
  simp only [List.find?_cons_of_pos, h, decide_true]

/-- So is a name that is known with its extension only. -/
theorem lookUp_of_known_withExtension (hbare : i.count (Path.fileName filename) = 0)
    (h : 0 < i.count (withExtension (Path.fileName filename))) :
    i.lookUp filename = i.answerFor (withExtension (Path.fileName filename)) .direct := by
  unfold lookUp
  simp only [List.find?_cons_of_neg, List.find?_cons_of_pos, hbare, h, Nat.lt_irrefl,
    decide_true, decide_false, Bool.false_eq_true, not_false_eq_true]

/-- Among no files, there is none of any name, and none of a similar name. -/
theorem lookUp_of_files_eq_nil (h : i.files = []) :
    i.lookUp filename = .missing (Path.fileName filename) := by
  have hcount (name : String) : i.count name = 0 := by rw [count, h, List.countP_nil]
  have hnames : i.names = [] := by rw [names, h, List.map_nil, List.eraseDups_nil]
  have hshorter (name : String) : i.withoutDoubleExtension name = none := by
    simp [withoutDoubleExtension, hcount]
  have hsimilar (name : String) : i.mostSimilar name = none := by simp [mostSimilar, hnames]
  unfold lookUp
  simp only [List.find?_cons, hcount, Nat.lt_irrefl, decide_false, List.find?_nil, hshorter,
    hsimilar]

theorem withExtension_of_not_hasExtension (h : hasExtension name = false) :
    withExtension name = name ++ extension := by
  simp [withExtension, h]

/-! ### Other paths -/

/-- The same names with other paths. -/
def mapPaths (f : String → String) (i : FileIndex) : FileIndex :=
  ⟨i.scope, i.files.map fun file => ⟨file.name, f file.path⟩⟩

theorem filter_mapPaths (f : String → String) (i : FileIndex) (name : String) :
    (i.mapPaths f).files.filter (·.name = name) =
      (i.files.filter (·.name = name)).map fun file => ⟨file.name, f file.path⟩ := by
  rw [mapPaths, List.filter_map]
  rfl

@[simp] theorem names_mapPaths (f : String → String) (i : FileIndex) :
    (i.mapPaths f).names = i.names := by
  rw [names, mapPaths, List.map_map]
  rfl

@[simp] theorem count_mapPaths (f : String → String) (i : FileIndex) (name : String) :
    (i.mapPaths f).count name = i.count name := by
  rw [count_eq_length_filter, count_eq_length_filter, filter_mapPaths, List.length_map]

theorem answerFor_mapPaths (hanswer : ∀ p, answer (f p) = (answer p).mapPath f) :
    (i.mapPaths f).answerFor name answer = (i.answerFor name answer).mapPath f := by
  rw [answerFor, answerFor, filter_mapPaths]
  generalize i.files.filter (·.name = name) = files
  match files with
  | [] => rfl
  | [file] => exact hanswer file.path
  | _ :: _ :: _ => rfl

/-- **Names are looked up without regard to paths.** -/
theorem lookUp_mapPaths (f : String → String) (i : FileIndex) (filename : String) :
    (i.mapPaths f).lookUp filename = (i.lookUp filename).mapPath f := by
  have hshorter (name : String) :
      (i.mapPaths f).withoutDoubleExtension name = i.withoutDoubleExtension name := by
    simp only [withoutDoubleExtension, count_mapPaths]
  have hsimilar (name : String) : (i.mapPaths f).mostSimilar name = i.mostSimilar name := by
    simp only [mostSimilar, names_mapPaths]
  unfold lookUp
  simp only [count_mapPaths, hshorter, hsimilar]
  split
  · exact answerFor_mapPaths fun _ => rfl
  · split
    · exact answerFor_mapPaths fun _ => rfl
    · split
      · exact answerFor_mapPaths fun _ => rfl
      · rfl

end FileIndex

end Citations

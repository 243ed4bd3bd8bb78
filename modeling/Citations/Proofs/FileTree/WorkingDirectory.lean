/-
**Paths seen from the working directory of a tree.**

A tree hangs together if whatever is in it is in a directory, and it is seen from one of its
directories.  In such a tree it makes no difference whether a path is followed from the working
directory or its normal form, seen from there, is followed from the root; unless `..` comes behind a
link, or the normal form is too long to be followed.

Main definitions:

* `Citations.FileTree.IsRooted` — a tree that hangs together, seen from one of its directories.

Main results:

* `Citations.FileTree.IsRooted.isName_fileName` — the path to a file ends in a name;
* `Citations.FileTree.IsRooted.locate_absolute` — **a path seen from the working directory leads to
  the same place**, unless `..` comes behind a link;
* `Citations.FileTree.IsRooted.readText_absolute` — so the same text is read there.
-/

import Citations.FileTree.Text
import Citations.Proofs.FileTree.Following
import Citations.Proofs.Path.FromDirectory

set_option relaxedAutoImplicit false
set_option autoImplicit false

namespace Citations.FileTree

open Citations.Path (IsName cleaned)

variable {t : FileTree} {here p q : Place} {name path : String} {xs ys : List String}

/-- A tree that hangs together, seen from one of its directories. -/
structure IsRooted (t : FileTree) : Prop where
  /-- The working directory can be told from its path. -/
  cwd : IsPlace t.cwd
  /-- The names on the way to the working directory are not too long. -/
  short : ∀ name ∈ t.cwd, name.utf8ByteSize ≤ maxNameLength
  /-- The working directory is a directory. -/
  directory : t.get? t.cwd = some .directory
  /-- Whatever is in the tree is in a directory. -/
  parents : ∀ n ∈ t.nodes, t.get? n.1.dropLast = some .directory

namespace IsRooted

/-! ### Directories -/

theorem get?_dropLast (ht : t.IsRooted) {n : FileNode} (h : t.get? p = some n) :
    t.get? p.dropLast = some .directory := by
  by_cases hp : p = []
  · subst hp
    rfl
  · rw [get?, if_neg hp] at h
    obtain ⟨m, hfound, -⟩ := Option.map_eq_some_iff.1 h
    have hm : m.1 = p := by simpa using List.find?_some hfound
    rw [← hm]
    exact ht.parents m (List.mem_of_find?_eq_some hfound)

/-- A directory is in directories all the way. -/
theorem get?_of_append (ht : t.IsRooted) (h : t.get? (xs ++ ys) = some .directory) :
    t.get? xs = some .directory := by
  induction ys using List.reverseRecOn with
  | nil => rwa [List.append_nil] at h
  | append_singleton ys y ih =>
      refine ih ?_
      rw [← List.append_assoc] at h
      simpa using ht.get?_dropLast h

/-- The names of the working directory lead to it from the root. -/
theorem locateWithin_cwd (ht : t.IsRooted) : t.locateWithin 0 [] t.cwd = .ok t.cwd := by
  have hprefix (xs ys : List String) (hcwd : t.cwd = xs ++ ys) :
      t.locateWithin 0 [] xs = .ok xs := by
    induction xs using List.reverseRecOn generalizing ys with
    | nil => rfl
    | append_singleton xs x ih =>
        have hx : x ∈ t.cwd := by simp [hcwd]
        have hname := (ht.cwd x hx).1
        have hdir := ht.directory
        rw [hcwd] at hdir
        have hlast := ht.get?_of_append hdir
        refine locateWithin_zero_append.2 ⟨xs, ih (x :: ys) (by simp [hcwd]), ?_⟩
        rw [locateWithin, walk, if_neg (by simp [ht.get?_of_append hlast]),
          if_neg (by simp [hname.1, hname.2.1]), if_neg hname.2.2,
          if_neg (Nat.not_lt.2 (ht.short x hx)), hlast]
        rfl
  exact hprefix t.cwd [] (by simp)

/-! ### Paths that end in no name -/

theorem get?_of_walk_concat (ht : t.IsRooted) (hname : ¬ IsName name)
    {follow : Place → List String → Except Fault Place}
    (hfollow : ∀ here xs q, follow here (xs ++ [name]) = .ok q → t.get? q = some .directory)
    (h : t.walk follow here (xs ++ [name]) = .ok q) : t.get? q = some .directory := by
  induction xs generalizing here with
  | nil =>
      rw [List.nil_append] at h
      rcases t.walk_cons_cases here name with ⟨e, -, hw⟩ | ⟨hdir, hw⟩ | ⟨hname', -⟩
      · rw [hw] at h
        cases h
      · rw [hw] at h
        cases h
        unfold beside
        split
        · exact hdir
        · split
          · exact ht.get?_dropLast hdir
          · rename_i hidle hup
            rw [not_or] at hidle
            exact absurd ⟨hidle.1, hidle.2, hup⟩ hname
      · exact absurd hname' hname
  | cons x xs ih =>
      rw [List.cons_append] at h
      rcases t.walk_cons_cases here x with ⟨e, -, hw⟩ | ⟨-, hw⟩ | ⟨-, target, hw⟩
      · rw [hw] at h
        cases h
      · rw [hw] at h
        exact ih h
      · rw [hw, ← List.append_assoc] at h
        exact hfollow _ _ _ h

/-- What leads nowhere or up leads to a directory in the end. -/
theorem get?_of_locateWithin_concat (ht : t.IsRooted) (hname : ¬ IsName name) {links : Nat}
    (h : t.locateWithin links here (xs ++ [name]) = .ok q) : t.get? q = some .directory := by
  induction links generalizing here xs q with
  | zero => exact ht.get?_of_walk_concat hname (fun _ _ _ h => by cases h) h
  | succ links ih => exact ht.get?_of_walk_concat hname (fun _ _ _ h => ih h) h

/-- **The path to a file ends in a name.** -/
theorem isName_fileName (ht : t.IsRooted) (h : t.isFile path = true) :
    IsName (Path.fileName path) := by
  obtain ⟨init, hsegs⟩ := Path.exists_segments_eq_concat path
  obtain ⟨q, hq⟩ := exists_locate_of_isFile h
  by_contra hname
  have hwalk := hq
  rw [locate_of_le (le_of_locate hq), hsegs] at hwalk
  simp [isFile, hq, ht.get?_of_locateWithin_concat hname hwalk] at h

end IsRooted

/-! ### Texts -/

/-- A file has the same bytes if its path is tidy. -/
theorem read_tidy (h : t.isFile path = true) : t.read (Path.tidy path) = t.read path := by
  obtain ⟨q, hq⟩ := exists_locate_of_isFile h
  rw [read, read, hq, locate_tidy hq]

/-- The text of a file is made up of its bytes, if they are UTF-8. -/
theorem readText_of_read {bytes : List UInt8} (h : t.read (Path.tidy path) = .ok bytes) :
    t.readText path = ((Text.Utf8.decode bytes).mapError fun f => ⟨path, .encoding f⟩).map
      fun cs => String.ofList (Text.unifyBreaks cs) := by
  rw [readText]
  simp only [h]
  cases Text.Utf8.decode bytes <;> rfl

theorem exists_of_readText {content : String} (h : t.readText path = .ok content) :
    ∃ bytes cs, t.read (Path.tidy path) = .ok bytes ∧ Text.Utf8.decode bytes = .ok cs ∧
      String.ofList (Text.unifyBreaks cs) = content := by
  cases hread : t.read (Path.tidy path) with
  | error f =>
      rw [readText] at h
      simp only [hread] at h
      cases h
  | ok bytes =>
      rw [readText_of_read hread] at h
      cases hdecode : Text.Utf8.decode bytes with
      | error f =>
          rw [hdecode] at h
          cases h
      | ok cs =>
          rw [hdecode] at h
          exact ⟨bytes, cs, rfl, hdecode, Except.ok.inj h⟩

/-- A text is read from a file, if its path is tidy. -/
theorem isFile_of_readText {content : String} (htidy : Path.tidy path = path)
    (h : t.readText path = .ok content) : t.isFile path = true := by
  obtain ⟨bytes, -, hread, -⟩ := exists_of_readText h
  rw [htidy] at hread
  exact (t.isFile_iff path).2 ⟨bytes, hread⟩

namespace IsRooted

/-! ### Seen from the working directory -/

/-- **A path seen from the working directory leads to the same place**, unless `..` comes behind a
link or there is too much to be seen. -/
theorem locate_absolute (ht : t.IsRooted) (hclimb : t.climbsBehindLink path = false)
    (hsize : (Path.absolute t.cwdPath path).utf8ByteSize ≤ maxPathLength)
    (h : t.locate path = .ok q) : t.locate (Path.absolute t.cwdPath path) = .ok q := by
  cases hp : Path.isAbsolute path with
  | true =>
      rw [Path.absolute_of_isAbsolute _ hp]
      exact locate_normalize hclimb h
  | false =>
      obtain ⟨front, back, place, hsegs, hback, hfront, hq⟩ := exists_parts_of_locate hclimb h
      have hplace : start t.cwd path = (t.cwd, Path.segments path) := by simp [start, hp]
      have hjoin : Path.join t.cwdPath path = pathTo (t.cwd ++ [path]) := join_pathTo ht.cwd hp
      have hcleaned : cleaned (pathTo (t.cwd ++ [path])) =
          Path.clean true (t.cwd ++ front ++ back) := by
        rw [cleaned, isAbsolute_pathTo, segments_pathTo_concat ht.cwd, Path.clean_cons_empty, hsegs,
          List.append_assoc]
      obtain ⟨lead, hnormal, hlead⟩ := Path.segments_normalize (pathTo (t.cwd ++ [path]))
      rw [hplace] at hfront
      rw [Path.absolute_of_not_isAbsolute _ hp, hjoin] at hsize ⊢
      have hstart : (start t.cwd (Path.normalize (pathTo (t.cwd ++ [path])))).1 = [] := by
        simp [start, isAbsolute_pathTo]
      rw [locate_of_le hsize, hstart, hnormal, locateWithin_append (locateWithin_of_idle rfl hlead),
        hcleaned]
      exact locateWithin_clean_append (fun _ => rfl) hback
        (locateWithin_zero_append.2 ⟨_, ht.locateWithin_cwd, hfront⟩) hq

/-- A file is at the same place if its path is seen from the working directory. -/
theorem locate_absolute_of_isFile (ht : t.IsRooted) (hclimb : t.climbsBehindLink path = false)
    (hsize : (Path.absolute t.cwdPath path).utf8ByteSize ≤ maxPathLength)
    (hfile : t.isFile path = true) : t.locate (Path.absolute t.cwdPath path) = t.locate path := by
  obtain ⟨q, hq⟩ := exists_locate_of_isFile hfile
  rw [hq, ht.locate_absolute hclimb hsize hq]

/-- **A file is the same one** if its path is seen from the working directory. -/
theorem read_absolute (ht : t.IsRooted) (hclimb : t.climbsBehindLink path = false)
    (hsize : (Path.absolute t.cwdPath path).utf8ByteSize ≤ maxPathLength)
    (hfile : t.isFile path = true) : t.read (Path.absolute t.cwdPath path) = t.read path := by
  rw [read, read, ht.locate_absolute_of_isFile hclimb hsize hfile]

/-- **The text of a file is read**, if its path is seen from the working directory. -/
theorem readText_absolute_of_read (ht : t.IsRooted) (hclimb : t.climbsBehindLink path = false)
    (hsize : (Path.absolute t.cwdPath path).utf8ByteSize ≤ maxPathLength) {bytes : List UInt8}
    (h : t.read path = .ok bytes) :
    t.readText (Path.absolute t.cwdPath path) =
      ((Text.Utf8.decode bytes).mapError
        fun f => ⟨Path.absolute t.cwdPath path, .encoding f⟩).map
        fun cs => String.ofList (Text.unifyBreaks cs) := by
  have htidy : Path.tidy (Path.absolute t.cwdPath path) = Path.absolute t.cwdPath path :=
    Path.tidy_normalize _
  have hfile : t.isFile path = true := (t.isFile_iff path).2 ⟨bytes, h⟩
  exact readText_of_read (by rw [htidy, ht.read_absolute hclimb hsize hfile, h])

/-- The text of a file is the same one, too. -/
theorem readText_absolute (ht : t.IsRooted) (hclimb : t.climbsBehindLink path = false)
    (hsize : (Path.absolute t.cwdPath path).utf8ByteSize ≤ maxPathLength)
    (hfile : t.isFile path = true) {content : String} (h : t.readText path = .ok content) :
    t.readText (Path.absolute t.cwdPath path) = .ok content := by
  obtain ⟨bytes, cs, hread, hdecode, rfl⟩ := exists_of_readText h
  rw [read_tidy hfile] at hread
  rw [ht.readText_absolute_of_read hclimb hsize hread, hdecode]
  rfl

end IsRooted

end Citations.FileTree

/-
**Trees without links.**

Where no link is on the way, a path can be read off: the real path of a file is the normal form of
its path, and the way from one directory to a file, read from that directory, leads to the file.

Main definitions:

* `Citations.FileTree.IsPlace` — a place whose names can be told from its path;
* `Citations.FileTree.IsPlain` — a tree of such places without links.

Main results:

* `Citations.FileTree.join_pathTo`, `Citations.FileTree.directory_pathTo` — joining a path, and the
  directory of a path, place by place;
* `Citations.FileTree.exists_absolute_eq_append` — the normal form of a path, seen from a directory,
  is the path to a place, but for a slash that may stand in front;
* `Citations.FileTree.IsPlain.eq_of_realPath_pathTo` — **the path to a place is real**.
-/

import Citations.FileTree.Real
import Citations.Proofs.Path.Normal

set_option relaxedAutoImplicit false
set_option autoImplicit false

namespace Citations.FileTree

open Citations.Path (IsName clean cleaned joinSegments segments)

variable {t : FileTree} {p q : Place} {name path : String}

/-! ### Places and their paths -/

/-- A place whose names can be told from its path. -/
def IsPlace (p : Place) : Prop := ∀ name ∈ p, IsName name ∧ '/' ∉ name.toList

theorem isPlace_nil : IsPlace [] := by
  intro name h
  cases h

theorem IsPlace.append (hp : IsPlace p) (hq : IsPlace q) : IsPlace (p ++ q) :=
  fun name hname => (List.mem_append.1 hname).elim (hp name) (hq name)

theorem IsPlace.of_append_left (h : IsPlace (p ++ q)) : IsPlace p :=
  fun name hname => h name (List.mem_append_left _ hname)

theorem IsPlace.of_append_right (h : IsPlace (p ++ q)) : IsPlace q :=
  fun name hname => h name (List.mem_append_right _ hname)

theorem IsPlace.dropLast (h : IsPlace p) : IsPlace p.dropLast :=
  fun name hname => h name ((List.dropLast_sublist p).subset hname)

theorem isPlace_cleaned (h : Path.isAbsolute path = true) : IsPlace (cleaned path) :=
  fun _ hname => ⟨Path.isName_of_mem_cleaned h hname, Path.slash_notMem_of_mem_cleaned hname⟩

/-- The path to what is called by a name below a place. -/
theorem pathTo_concat (p : Place) (name : String) :
    pathTo (p ++ [name]) = (if p = [] then "" else pathTo p) ++ "/" ++ name := by
  by_cases hp : p = []
  · rw [if_pos hp, hp, pathTo]
    simp [joinSegments]
  · rw [if_neg hp, pathTo, Path.joinSegments_append hp (by simp), pathTo]
    simp [joinSegments, String.append_assoc]

/-- Names that are joined with slashes first make the same path. -/
theorem pathTo_joinSegments (p : Place) {names : List String} (h : names ≠ []) :
    pathTo (p ++ [joinSegments names]) = pathTo (p ++ names) := by
  by_cases hp : p = []
  · rw [hp, pathTo, pathTo]
    simp [joinSegments]
  · rw [pathTo_concat, if_neg hp, pathTo, pathTo, Path.joinSegments_append hp h]
    simp [String.append_assoc]

theorem getLast?_pathTo (hp : IsPlace p) (hne : p ≠ []) :
    (pathTo p).toList.getLast? ≠ some '/' := by
  obtain ⟨q, name, rfl⟩ : ∃ q name, p = q ++ [name] :=
    ⟨_, _, (List.dropLast_concat_getLast hne).symm⟩
  have hname := hp name (by simp)
  have hlist : name.toList ≠ [] := by simpa using hname.1.1
  have hend := List.getLast?_eq_some_getLast hlist
  rw [pathTo_concat, String.toList_append, List.getLast?_append, hend, Option.some_or, ← hend]
  exact fun hlast => hname.2 (List.mem_of_getLast? hlast)

/-- A path that does not start at the root, joined to the path to a place. -/
theorem join_pathTo (hp : IsPlace p) (h : Path.isAbsolute path = false) :
    Path.join (pathTo p) path = pathTo (p ++ [path]) := by
  rw [Path.join, if_neg (by simp [h]), pathTo_concat]
  by_cases hne : p = []
  · subst hne
    rw [if_pos (.inr rfl), if_pos rfl]
    rfl
  · rw [if_neg, if_neg hne]
    rintro (hempty | hlast)
    · simp [pathTo] at hempty
    · exact getLast?_pathTo hp hne hlast

theorem directory_pathTo_concat (hp : IsPlace p) (h : '/' ∉ name.toList) :
    Path.directory (pathTo (p ++ [name])) = pathTo p := by
  rw [pathTo_concat, Path.directory_append_slash _ h]
  by_cases hne : p = []
  · subst hne
    rfl
  · have hlast := getLast?_pathTo hp hne
    rw [if_neg hne]
    cases hreverse : (pathTo p).toList.reverse with
    | nil =>
        rw [List.reverse_eq_nil_iff] at hreverse
        simp [pathTo] at hreverse
    | cons c cs =>
        have htext : (pathTo p).toList = cs.reverse ++ [c] := by
          rw [← List.reverse_reverse (pathTo p).toList, hreverse, List.reverse_cons]
        have hc : c ≠ '/' := by
          rintro rfl
          exact hlast (by simp [htext])
        rw [if_neg (by simp [htext, hc]), List.dropWhile_cons_of_neg (by simpa using hc),
          ← hreverse, List.reverse_reverse, String.ofList_toList]

/-- The directory of the path to a place. -/
theorem directory_pathTo (hp : IsPlace p) : Path.directory (pathTo p) = pathTo p.dropLast := by
  by_cases hne : p = []
  · subst hne
    rfl
  · obtain ⟨q, name, rfl⟩ : ∃ q name, p = q ++ [name] :=
      ⟨_, _, (List.dropLast_concat_getLast hne).symm⟩
    rw [directory_pathTo_concat hp.of_append_left (hp name (by simp)).2, List.dropLast_concat]

theorem segments_pathTo_concat (hp : IsPlace p) (path : String) :
    segments (pathTo (p ++ [path])) = "" :: (p ++ segments path) := by
  rw [pathTo_concat]
  by_cases hne : p = []
  · subst hne
    rw [if_pos rfl, Path.segments_append_slash]
    rfl
  · rw [if_neg hne, Path.segments_append_slash, pathTo, Path.segments_slash_append,
      Path.segments_joinSegments (fun name hname => (hp name hname).2) hne]
    rfl

theorem segments_pathTo (hp : IsPlace p) (hne : p ≠ []) : segments (pathTo p) = "" :: p := by
  rw [pathTo, Path.segments_slash_append,
    Path.segments_joinSegments (fun name hname => (hp name hname).2) hne]

theorem cleaned_pathTo (hp : IsPlace p) : cleaned (pathTo p) = p := by
  by_cases hne : p = []
  · subst hne
    rfl
  · rw [cleaned, isAbsolute_pathTo, segments_pathTo hp hne, Path.clean_cons_empty]
    exact Path.clean_of_isName fun name hname => (hp name hname).1

theorem names_pathTo (hp : IsPlace p) : Path.names (pathTo p) = p := by
  by_cases hne : p = []
  · subst hne
    rfl
  · rw [Path.names, segments_pathTo hp hne, List.filter_cons_of_neg (by simp)]
    exact List.filter_eq_self.2 fun name hname => by simpa using (hp name hname).1.1

theorem root_pathTo_concat (hp : IsPlace p) (h : Path.isAbsolute path = false) :
    Path.root (pathTo (p ++ [path])) = "/" := by
  refine Path.root_slash_append ?_
  cases p with
  | nil => simpa using h
  | cons name p =>
      have hname := hp name (List.mem_cons_self ..)
      exact Path.isAbsolute_joinSegments hname.1.1 hname.2

theorem root_pathTo (hp : IsPlace p) : Path.root (pathTo p) = "/" := by
  cases p with
  | nil => rfl
  | cons name p =>
      have hname := hp name (List.mem_cons_self ..)
      exact Path.root_slash_append (Path.isAbsolute_joinSegments hname.1.1 hname.2)

/-- The path to a place is a normal form. -/
theorem normalize_pathTo (hp : IsPlace p) : Path.normalize (pathTo p) = pathTo p := by
  rw [Path.normalize_of_isAbsolute (isAbsolute_pathTo p), root_pathTo hp, cleaned_pathTo hp]
  rfl

/-- The normal form of a path that is read from a place. -/
theorem normalize_pathTo_concat (hp : IsPlace p) (h : Path.isAbsolute path = false) :
    Path.normalize (pathTo (p ++ [path])) = pathTo (clean true (p ++ segments path)) := by
  rw [Path.normalize_of_isAbsolute (isAbsolute_pathTo _), root_pathTo_concat hp h, cleaned,
    isAbsolute_pathTo, segments_pathTo_concat hp, Path.clean_cons_empty]
  rfl

/-- The normal form of a path, seen from the working directory, is the path to a place, with another
slash in front if the path has just two. -/
theorem exists_absolute_eq_append (hcwd : IsPlace t.cwd) (path : String) :
    ∃ pre p, (pre = "" ∨ pre = "/" ∧ Path.root path = "//") ∧ IsPlace p ∧
      Path.absolute t.cwdPath path = pre ++ pathTo p := by
  cases habs : Path.isAbsolute path with
  | true =>
      rw [Path.absolute, if_pos habs, Path.normalize_of_isAbsolute habs]
      rcases Path.root_of_isAbsolute habs with hroot | hroot
      · exact ⟨"", _, .inl rfl, isPlace_cleaned habs, by rw [hroot, String.empty_append]; rfl⟩
      · refine ⟨"/", _, .inr ⟨rfl, hroot⟩, isPlace_cleaned habs, ?_⟩
        rw [hroot, pathTo, ← String.append_assoc]
        rfl
  | false =>
      refine ⟨"", clean true (t.cwd ++ segments path), .inl rfl, ?_, ?_⟩
      · intro name hname
        refine ⟨Path.isName_of_mem_clean hname, ?_⟩
        rcases List.mem_append.1 (Path.mem_of_mem_clean hname) with hmem | hmem
        · exact (hcwd name hmem).2
        · exact Path.slash_notMem_of_mem_segments hmem
      · rw [Path.absolute, if_neg (by simp [habs]), cwdPath, join_pathTo hcwd habs,
          normalize_pathTo_concat hcwd habs, String.empty_append]

theorem exists_absolute_eq (hcwd : IsPlace t.cwd) (h : Path.root path ≠ "//") :
    ∃ p, IsPlace p ∧ Path.absolute t.cwdPath path = pathTo p := by
  obtain ⟨pre, p, rfl | ⟨-, hroot⟩, hp, hnormal⟩ := exists_absolute_eq_append hcwd path
  · exact ⟨p, hp, by rw [hnormal, String.empty_append]⟩
  · exact absurd hroot h

/-! ### Trees without links -/

/-- A tree of places that their paths tell, without links. -/
structure IsPlain (t : FileTree) : Prop where
  cwd : IsPlace t.cwd
  places : ∀ n ∈ t.nodes, IsPlace n.1
  noLinks : ∀ n ∈ t.nodes, ∀ target, n.2 ≠ .link target

theorem IsPlain.get?_ne_link (ht : t.IsPlain) (p : Place) (target : String) :
    t.get? p ≠ some (.link target) := by
  unfold get?
  split
  · intro h
    cases h
  · intro h
    obtain ⟨n, hn, hlink⟩ := Option.map_eq_some_iff.1 h
    exact ht.noLinks n (List.mem_of_find?_eq_some hn) target hlink

theorem IsPlain.lookAt_ne_link (ht : t.IsPlain) (s : Spot) (target : String) :
    t.lookAt s ≠ some (.link target) := by
  unfold lookAt
  split
  · intro h
    cases h
  · exact ht.get?_ne_link _ target

/-- Without links, the search for a real path from the root cleans the names on its way. -/
theorem IsPlain.eq_of_realWalk (ht : t.IsPlain)
    {follow : Seen → Spot → List String → Except SearchFailure RealWalk} {seen : Seen}
    {kept names : List String} {r : RealWalk} (hkept : Path.IsClean true kept)
    (h : t.realWalk follow seen ⟨true, kept.reverse⟩ names = .ok r) :
    r = ⟨⟨true, (names.foldl (Path.cleanStep true) kept).reverse⟩, false, seen⟩ := by
  -- the place that is reached is spelled by the names that are kept, which stay clean
  induction names generalizing kept with
  | nil => exact (Except.ok.inj h).symm
  | cons name names ih =>
      rw [List.foldl_cons]
      refine ih (hkept.cleanStep name) ?_
      rw [realWalk] at h
      by_cases hidle : name = "" ∨ name = "."
      · rw [if_pos hidle] at h
        rwa [Path.cleanStep_of_idle hidle]
      rw [if_neg hidle] at h
      by_cases hup : name = ".."
      · subst hup
        rw [if_pos rfl] at h
        cases kept with
        | nil => exact h
        | cons top rest =>
            have htop : top ≠ ".." := (hkept.isName_of_mem (List.mem_cons_self ..)).2.2
            have hstep : Path.cleanStep true (top :: rest) ".." = rest := by
              simp [Path.cleanStep, htop]
            rw [hstep]
            simpa [Spot.above] using h
      have hname : IsName name := ⟨fun h => hidle (.inl h), fun h => hidle (.inr h), hup⟩
      have hbelow : Spot.below ⟨true, kept.reverse⟩ name =
          ⟨true, (Path.cleanStep true kept name).reverse⟩ := by
        rw [Path.cleanStep_of_isName hname, List.reverse_cons]
        rfl
      rw [if_neg hup, hbelow] at h
      dsimp only at h
      split at h
      · cases h
      · split at h
        · rename_i target hlink
          exact absurd hlink (ht.lookAt_ne_link _ target)
        · exact h

/-- Without links, the place of a real path is that of the path without idle names. -/
theorem IsPlain.eq_of_realPlace (ht : t.IsPlain) (habsolute : Path.isAbsolute path = true)
    (h : t.realPlace path = .ok p) : p = cleaned path := by
  obtain ⟨r, hwalk, rfl⟩ := Except.map_eq_ok_iff.1 h
  rw [habsolute] at hwalk
  have hr : r = ⟨⟨true, clean true (segments path)⟩, false, []⟩ := by
    generalize (t.cwd.length + 2) * t.nodes.length = depth at hwalk
    cases depth with
    | zero => exact ht.eq_of_realWalk .nil hwalk
    | succ depth => exact ht.eq_of_realWalk .nil hwalk
  rw [hr, placeOf, if_pos rfl, Path.clean_clean, cleaned, habsolute]

/-- **The path to a place is real**, where no link is on the way. -/
theorem IsPlain.eq_of_realPath_pathTo (ht : t.IsPlain) (hp : IsPlace p)
    (h : t.realPath (pathTo p) = .ok path) : path = pathTo p := by
  obtain ⟨q, hq, rfl⟩ := Except.map_eq_ok_iff.1 h
  rw [ht.eq_of_realPlace (isAbsolute_pathTo p) hq, cleaned_pathTo hp]

end Citations.FileTree

/-
**Paths without null characters.**

A real path is looked for name by name, and the search is given up at a name that holds a null
character.  That is the only reason to give it up; so every path without one has a real path, if the
links of the tree lead nowhere by such a name either.

Main definitions:

* `Citations.FileTree.LinksHoldNoNull` — a tree whose links lead nowhere by such a name;
* `Citations.FileTree.IsNullFree` — a tree in which there is no such name at all;
* `Citations.FileTree.FailsBy` — why the paths of a kind can have no real path.

Main results:

* `Citations.FileTree.eq_nullCharacter_of_realPath` — **nothing else keeps a path from having a real
  path**;
* `Citations.FileTree.LinksHoldNoNull.exists_realPath` — **a path without null characters has a real
  path**.
-/

import Citations.FileTree.Real
import Citations.Proofs.Path.Normal

set_option relaxedAutoImplicit false
set_option autoImplicit false

namespace Citations.FileTree

open Citations.Path (joinSegments segments)

variable {t : FileTree} {a b name path : String} {e : SearchFailure} {names : List String}
  {follow : Seen → Spot → List String → Except SearchFailure RealWalk}

/-! ### Texts without null characters -/

theorem holdsNull_eq_false_iff {s : String} : holdsNull s = false ↔ '\x00' ∉ s.toList := by
  simp [holdsNull]

@[simp] theorem holdsNull_append (a b : String) :
    holdsNull (a ++ b) = (holdsNull a || holdsNull b) := by
  simp [holdsNull, List.contains_eq_mem]

@[simp] theorem holdsNull_slash : holdsNull "/" = false := by decide

theorem holdsNull_joinSegments_iff {segs : List String} :
    holdsNull (joinSegments segs) = false ↔ ∀ s ∈ segs, holdsNull s = false := by
  induction segs with
  | nil => simp [holdsNull]
  | cons s segs ih =>
      cases segs with
      | nil => simp
      | cons s' segs =>
          rw [Path.joinSegments_cons (by simp), List.forall_mem_cons, ← ih]
          simp

theorem holdsNull_of_mem_segments (h : holdsNull path = false) (hname : name ∈ segments path) :
    holdsNull name = false := by
  rw [← Path.joinSegments_segments path, holdsNull_joinSegments_iff] at h
  exact h name hname

theorem holdsNull_directory (h : holdsNull path = false) :
    holdsNull (Path.directory path) = false := by
  rw [holdsNull_eq_false_iff] at h ⊢
  intro hmem
  rw [Path.directory, String.toList_ofList, List.mem_reverse] at hmem
  have hbefore : '\x00' ∈ path.toList.reverse.dropWhile (· ≠ '/') := by
    split at hmem
    · exact hmem
    · exact (List.dropWhile_sublist _).subset hmem
  exact h (List.mem_reverse.1 ((List.dropWhile_sublist _).subset hbefore))

theorem holdsNull_join (ha : holdsNull a = false) (hb : holdsNull b = false) :
    holdsNull (Path.join a b) = false := by
  unfold Path.join
  split
  · exact hb
  · split <;> simp [ha, hb]

theorem eq_or_mem_of_mem_cleanStep {rooted : Bool} {kept : List String} {s x : String}
    (h : s ∈ Path.cleanStep rooted kept x) : s = ".." ∨ s = x ∨ s ∈ kept := by
  unfold Path.cleanStep at h
  grind

theorem eq_or_mem_of_mem_clean {rooted : Bool} {segs kept : List String} {s : String}
    (h : s ∈ segs.foldl (Path.cleanStep rooted) kept) : s = ".." ∨ s ∈ segs ∨ s ∈ kept := by
  induction segs generalizing kept with
  | nil => exact .inr (.inr h)
  | cons x segs ih =>
      rcases ih h with rfl | hsegs | hkept
      · exact .inl rfl
      · exact .inr (.inl (List.mem_cons_of_mem _ hsegs))
      · rcases eq_or_mem_of_mem_cleanStep hkept with rfl | rfl | hkept
        · exact .inl rfl
        · exact .inr (.inl (List.mem_cons_self ..))
        · exact .inr (.inr hkept)

/-- The normal form of a path has no other names than the path. -/
theorem holdsNull_normalize (h : holdsNull path = false) :
    holdsNull (Path.normalize path) = false := by
  have hroot : holdsNull (Path.root path) = false := by
    unfold Path.root
    split <;> decide
  have hnames : ∀ s ∈ Path.clean (Path.isAbsolute path) (segments path), holdsNull s = false := by
    intro s hs
    rcases eq_or_mem_of_mem_clean (List.mem_reverse.1 hs) with rfl | hs | hs
    · decide
    · exact holdsNull_of_mem_segments h hs
    · cases hs
  unfold Path.normalize
  dsimp only
  split
  · decide
  · simp [hroot, holdsNull_joinSegments_iff.2 hnames]

theorem holdsNull_absolute (ha : holdsNull a = false) (hb : holdsNull b = false) :
    holdsNull (Path.absolute a b) = false := by
  unfold Path.absolute
  split
  · exact holdsNull_normalize hb
  · exact holdsNull_normalize (holdsNull_join ha hb)

/-! ### Searches that are given up -/

theorem eq_nullCharacter_of_realWalk
    (hfollow : ∀ seen here names, follow seen here names = .error e → e = .nullCharacter)
    {seen : Seen} {here : Spot} (h : t.realWalk follow seen here names = .error e) :
    e = .nullCharacter := by
  induction names generalizing seen here with
  | nil => cases h
  | cons name names ih =>
      rw [realWalk] at h
      dsimp only at h
      split at h
      · exact ih h
      split at h
      · exact ih h
      split at h
      · exact (Except.error.inj h).symm
      split at h
      · split at h
        · exact ih h
        · cases h
        · split at h
          · rename_i hmet
            cases h
            exact hfollow _ _ _ hmet
          · split at h
            · cases h
            · exact ih h
      · exact ih h

/-- **Nothing but a null character keeps a path from having a real path.** -/
theorem eq_nullCharacter_of_realPath (h : t.realPath path = .error e) : e = .nullCharacter := by
  have hwalk (depth : Nat) : ∀ seen here names,
      t.realWithin depth seen here names = .error e → e = .nullCharacter := by
    induction depth with
    | zero =>
        intro seen here names h
        exact eq_nullCharacter_of_realWalk (fun _ _ _ h => by cases h) h
    | succ depth ih =>
        intro seen here names h
        exact eq_nullCharacter_of_realWalk ih h
  exact hwalk _ _ _ _ (Except.map_eq_error_iff.1 (Except.map_eq_error_iff.1 h))

/-! ### Searches that come to an end -/

/-- The links of the tree lead nowhere by a path that holds a null character. -/
def LinksHoldNoNull (t : FileTree) : Prop :=
  ∀ n ∈ t.nodes, ∀ target, n.2 = .link target → holdsNull target = false

theorem linksHoldNoNull_iff : t.LinksHoldNoNull ↔
    ∀ n ∈ t.nodes, (match n.2 with | .link target => holdsNull target | _ => false) = false := by
  refine forall_congr' fun n => imp_congr_right fun _ => ?_
  cases n.2 <;> simp

instance (t : FileTree) : Decidable t.LinksHoldNoNull := decidable_of_iff' _ linksHoldNoNull_iff

theorem LinksHoldNoNull.holdsNull_of_lookAt (ht : t.LinksHoldNoNull) {s : Spot} {target : String}
    (h : t.lookAt s = some (.link target)) : holdsNull target = false := by
  unfold lookAt at h
  split at h
  · cases h
  · unfold get? at h
    split at h
    · cases h
    · obtain ⟨n, hn, hlink⟩ := Option.map_eq_some_iff.1 h
      exact ht n (List.mem_of_find?_eq_some hn) target hlink

theorem LinksHoldNoNull.exists_realWalk (ht : t.LinksHoldNoNull)
    (hfollow : ∀ seen here names, (∀ name ∈ names, holdsNull name = false) →
      ∃ r, follow seen here names = .ok r)
    (hnames : ∀ name ∈ names, holdsNull name = false) (seen : Seen) (here : Spot) :
    ∃ r, t.realWalk follow seen here names = .ok r := by
  induction names generalizing seen here with
  | nil => exact ⟨_, rfl⟩
  | cons name names ih =>
      obtain ⟨hname, hrest⟩ := List.forall_mem_cons.1 hnames
      rw [realWalk]
      simp only [hname, Bool.false_eq_true, if_false]
      split
      · exact ih hrest _ _
      split
      · exact ih hrest _ _
      split
      · rename_i target hlink
        split
        · exact ih hrest _ _
        · exact ⟨_, rfl⟩
        · have htarget := ht.holdsNull_of_lookAt hlink
          obtain ⟨r, hr⟩ := hfollow ((here.below name, none) :: seen)
            (if Path.isAbsolute target then ⟨true, []⟩ else here) (segments target)
            fun name hname => holdsNull_of_mem_segments htarget hname
          rw [hr]
          dsimp only
          split
          · exact ⟨_, rfl⟩
          · exact ih hrest _ _
      · exact ih hrest _ _

/-- **A path without null characters has a real path.** -/
theorem LinksHoldNoNull.exists_realPath (ht : t.LinksHoldNoNull) (h : holdsNull path = false) :
    ∃ real, t.realPath path = .ok real := by
  have hwithin (depth : Nat) : ∀ seen here names, (∀ name ∈ names, holdsNull name = false) →
      ∃ r, t.realWithin depth seen here names = .ok r := by
    induction depth with
    | zero =>
        intro seen here names hnames
        exact ht.exists_realWalk (fun _ _ _ _ => ⟨_, rfl⟩) hnames seen here
    | succ depth ih =>
        intro seen here names hnames
        exact ht.exists_realWalk ih hnames seen here
  obtain ⟨r, hr⟩ := hwithin ((t.cwd.length + 2) * t.nodes.length) []
    ⟨Path.isAbsolute path, []⟩ (segments path) fun name hname => holdsNull_of_mem_segments h hname
  exact ⟨_, by rw [realPath, realPlace, hr]; rfl⟩

/-- No path in a tree holds a null character: neither that of the working directory, nor that of a
place, nor that a link leads by. -/
structure IsNullFree (t : FileTree) : Prop where
  cwd : ∀ name ∈ t.cwd, holdsNull name = false
  names : ∀ n ∈ t.nodes, ∀ name ∈ n.1, holdsNull name = false
  links : t.LinksHoldNoNull

theorem holdsNull_pathTo {p : Place} (h : ∀ name ∈ p, holdsNull name = false) :
    holdsNull (pathTo p) = false := by
  simp [pathTo, holdsNull_joinSegments_iff.2 h]

/-! ### Paths of a kind -/

/-- If a path is of a kind, so is its directory; and if such a path has no real path, that is for
one of the reasons `Fails`. -/
structure FailsBy (t : FileTree) (Kind : String → Prop) (Fails : SearchFailure → Prop) : Prop where
  directory : ∀ path, Kind path → Kind (Path.directory path)
  realPath : ∀ path e, Kind path → t.realPath path = .error e → Fails e

theorem failsBy_any (t : FileTree) : t.FailsBy (fun _ => True) (· = .nullCharacter) where
  directory _ _ := trivial
  realPath _ _ _ := eq_nullCharacter_of_realPath

theorem LinksHoldNoNull.failsBy (ht : t.LinksHoldNoNull) :
    t.FailsBy (fun path => holdsNull path = false) fun _ => False where
  directory _ := holdsNull_directory
  realPath path e h he := by
    obtain ⟨real, hreal⟩ := ht.exists_realPath h
    rw [hreal] at he
    cases he

end Citations.FileTree

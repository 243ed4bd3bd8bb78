/-
**Places that their paths tell.**

The path to a place tells the place if no name in it is empty, idle or holds a slash.  Where the
working directory is such a place, every real path leads to one, through whichever links it was
found: all names come from between the slashes of a path or of the target of a link.

Main definitions:

* `Citations.FileTree.IsNamed` — a tree of places that their paths tell;
* `Citations.FileTree.Spot.IsTold` — a spot without slashes in its names.

Main results:

* `Citations.FileTree.pathTo_inj` — the path to a place tells the place;
* `Citations.FileTree.IsNamed.isPlace_of_realPlace` — **a real path leads to such a place**;
* `Citations.FileTree.eq_of_join_eq` — a path below a directory tells the path to the directory;
* `Citations.FileTree.IsNamed.writeFile`, `Citations.FileTree.IsNamed.makeLink` — a tree of such
  places stays one when it is changed.
-/

import Citations.Proofs.FileTree.Plain

set_option relaxedAutoImplicit false
set_option autoImplicit false

namespace Citations.FileTree

open Citations.Path (clean cleaned joinSegments segments)

variable {t : FileTree} {p q : Place} {names : List String} {a b name pre path : String}

/-- A tree of places that their paths tell, seen from such a place. -/
structure IsNamed (t : FileTree) : Prop where
  cwd : IsPlace t.cwd
  places : ∀ n ∈ t.nodes, IsPlace n.1

theorem IsPlain.isNamed (ht : t.IsPlain) : t.IsNamed := ⟨ht.cwd, ht.places⟩

/-- The path to a place tells the place. -/
theorem pathTo_inj (hp : IsPlace p) (hq : IsPlace q) (h : pathTo p = pathTo q) : p = q := by
  rw [← cleaned_pathTo hp, h, cleaned_pathTo hq]

/-! ### Real places -/

/-- No name of the spot holds a slash. -/
def Spot.IsTold (s : Spot) : Prop := ∀ name ∈ s.names, '/' ∉ name.toList

/-- The spots that links were found to lead to are told. -/
def Seen.IsTold (seen : Seen) : Prop := ∀ entry ∈ seen, ∀ s, entry.2 = some s → s.IsTold

theorem Spot.IsTold.above {s : Spot} (h : s.IsTold) : s.above.IsTold := by
  unfold Spot.above
  split
  · exact fun name hname => h name ((List.dropLast_sublist _).subset hname)
  · intro name hname
    rcases List.mem_append.1 hname with hname | hname
    · exact h name hname
    · rw [List.mem_singleton.1 hname]
      decide

theorem Spot.IsTold.below {s : Spot} (h : s.IsTold) {name : String} (hname : '/' ∉ name.toList) :
    (s.below name).IsTold := by
  intro other hother
  rcases List.mem_append.1 hother with hother | hother
  · exact h other hother
  · rwa [List.mem_singleton.1 hother]

theorem Spot.IsTold.withRest {s : Spot} (h : s.IsTold)
    (hnames : ∀ name ∈ names, '/' ∉ name.toList) : (s.withRest names).IsTold := by
  unfold Spot.withRest
  split
  · exact hnames
  · intro name hname
    rcases List.mem_append.1 hname with hname | hname
    · exact h name hname
    · exact hnames name hname

theorem Seen.IsTold.cons {seen : Seen} (h : Seen.IsTold seen) {from_ : Spot} {to? : Option Spot}
    (hto : ∀ s, to? = some s → s.IsTold) : Seen.IsTold ((from_, to?) :: seen) := by
  intro entry hentry s hs
  rcases List.mem_cons.1 hentry with rfl | hentry
  · exact hto s hs
  · exact h entry hentry s hs

/-- What is true of a search for a real path that starts in order. -/
def FollowsTold (follow : Seen → Spot → List String → Except SearchFailure RealWalk) : Prop :=
  ∀ seen here names r, Seen.IsTold seen → here.IsTold → (∀ name ∈ names, '/' ∉ name.toList) →
    follow seen here names = .ok r → r.found.IsTold ∧ Seen.IsTold r.seen

theorem followsTold_realWalk {follow : Seen → Spot → List String → Except SearchFailure RealWalk}
    (hfollow : FollowsTold follow) : FollowsTold (t.realWalk follow) := by
  intro seen here names r
  -- names are taken off one at a time; behind a link the rest is followed from what it leads to
  induction names generalizing seen here with
  | nil =>
      intro hseen hhere _ h
      cases h
      exact ⟨hhere, hseen⟩
  | cons name names ih =>
      intro hseen hhere hnames h
      obtain ⟨hname, hrest⟩ := List.forall_mem_cons.1 hnames
      have hbelow := hhere.below hname
      rw [realWalk] at h
      dsimp only at h
      split at h
      · exact ih _ _ hseen hhere hrest h
      split at h
      · exact ih _ _ hseen hhere.above hrest h
      split at h
      · cases h
      split at h
      · rename_i target hlink
        split at h
        · rename_i found hfound
          exact ih _ _ hseen (hseen _ (List.mem_of_find?_eq_some hfound) _ rfl) hrest h
        · cases h
          exact ⟨hbelow.withRest hrest, hseen⟩
        · have hfrom : Spot.IsTold (if Path.isAbsolute target then ⟨true, []⟩ else here) := by
            split
            · exact fun name hname => absurd hname List.not_mem_nil
            · exact hhere
          have hpending : Seen.IsTold ((here.below name, none) :: seen) :=
            hseen.cons fun s hs => by cases hs
          split at h
          · cases h
          · rename_i met hmet
            obtain ⟨hfound, hmetTold⟩ := hfollow _ _ (segments target) met hpending hfrom
              (fun name hname => Path.slash_notMem_of_mem_segments hname) hmet
            split at h
            · cases h
              exact ⟨hfound.withRest hrest, hmetTold⟩
            · refine ih _ _ (hmetTold.cons fun s hs => ?_) hfound hrest h
              rwa [← Option.some.inj hs]
      · exact ih _ _ hseen hbelow hrest h

theorem followsTold_realWithin (t : FileTree) (depth : Nat) :
    FollowsTold (t.realWithin depth) := by
  induction depth with
  | zero =>
      refine followsTold_realWalk fun _ _ _ _ hseen hhere hnames h => ?_
      cases h
      exact ⟨hhere.withRest hnames, hseen⟩
  | succ depth ih => exact followsTold_realWalk ih

theorem isPlace_placeOf (hcwd : IsPlace t.cwd) {s : Spot} (h : s.IsTold) :
    IsPlace (t.placeOf s) := by
  intro name hname
  refine ⟨Path.isName_of_mem_clean hname, ?_⟩
  have hmem := Path.mem_of_mem_clean hname
  split at hmem
  · exact h name hmem
  · rcases List.mem_append.1 hmem with hmem | hmem
    · exact (hcwd name hmem).2
    · exact h name hmem

/-- **A real path leads to a place that its path tells.** -/
theorem IsNamed.isPlace_of_realPlace (ht : t.IsNamed) (h : t.realPlace path = .ok p) :
    IsPlace p := by
  have hstart : Spot.IsTold ⟨Path.isAbsolute path, []⟩ :=
    fun name hname => absurd hname List.not_mem_nil
  obtain ⟨r, hr, rfl⟩ := Except.map_eq_ok_iff.1 h
  exact isPlace_placeOf ht.cwd (followsTold_realWithin t _ _ _ _ r
    (fun entry hentry => absurd hentry List.not_mem_nil) hstart
    (fun name hname => Path.slash_notMem_of_mem_segments hname) hr).1

/-! ### Paths below a directory -/

/-- The names of a place do not start at the root. -/
theorem isAbsolute_joinSegments (h : IsPlace names) :
    Path.isAbsolute (joinSegments names) = false := by
  cases names with
  | nil => rfl
  | cons name names =>
      have hname := h name (List.mem_cons_self ..)
      exact Path.isAbsolute_joinSegments hname.1.1 hname.2

/-- Joining looks at the end of a path only. -/
theorem join_append (hne : a ≠ "") (h : Path.isAbsolute b = false) :
    Path.join (pre ++ a) b = pre ++ Path.join a b := by
  have hlist : a.toList ≠ [] := by simpa using hne
  have hlast := List.getLast?_eq_some_getLast hlist
  have hlast' : (pre ++ a).toList.getLast? = a.toList.getLast? := by
    rw [String.toList_append, List.getLast?_append, hlast, Option.some_or]
  have hne' : pre ++ a ≠ "" := by simp [String.append_eq_empty_iff, hne]
  simp only [Path.join, h, hlast', hne, hne', Bool.false_eq_true, if_false, false_or]
  split <;> simp only [String.append_assoc]

theorem join_append_pathTo (hp : IsPlace p) (hnames : IsPlace names) (hne : names ≠ []) :
    Path.join (pre ++ pathTo p) (joinSegments names) = pre ++ pathTo (p ++ names) := by
  have hrelative := isAbsolute_joinSegments hnames
  rw [join_append (by simp [pathTo]) hrelative, join_pathTo hp hrelative,
    pathTo_joinSegments p hne]

theorem segments_append_pathTo (hp : IsPlace p) (hne : p ≠ []) (hpre : pre = "" ∨ pre = "/") :
    segments (pre ++ pathTo p) = if pre = "" then "" :: p else "" :: "" :: p := by
  rcases hpre with rfl | rfl
  · rw [if_pos rfl, String.empty_append, segments_pathTo hp hne]
  · rw [if_neg (by decide), Path.segments_slash_append, segments_pathTo hp hne]

/-- **A path below a directory tells the path to the directory** in its normal form. -/
theorem eq_of_join_eq (hcwd : IsPlace t.cwd) (hnames : IsPlace names) (hne : names ≠ [])
    (h : Path.join (Path.absolute t.cwdPath a) (joinSegments names) =
      Path.join (Path.absolute t.cwdPath b) (joinSegments names)) :
    Path.absolute t.cwdPath a = Path.absolute t.cwdPath b := by
  obtain ⟨pre, p, hpre, hp, hnormal⟩ := exists_absolute_eq_append hcwd a
  obtain ⟨pre', q, hpre', hq, hnormal'⟩ := exists_absolute_eq_append hcwd b
  rw [hnormal, hnormal', join_append_pathTo hp hnames hne, join_append_pathTo hq hnames hne] at h
  have hsegments := congrArg segments h
  replace hpre := hpre.imp_right And.left
  replace hpre' := hpre'.imp_right And.left
  rw [segments_append_pathTo (hp.append hnames) (by simp [hne]) hpre,
    segments_append_pathTo (hq.append hnames) (by simp [hne]) hpre'] at hsegments
  -- two slashes in front would show as an empty name
  have hfirst {p q : Place} (hp : IsPlace p) : p ++ names ≠ "" :: (q ++ names) :=
    fun heq => (hp.append hnames "" (by simp [heq])).1.1 rfl
  rw [hnormal, hnormal']
  rcases hpre with rfl | rfl <;> rcases hpre' with rfl | rfl
  · rw [List.append_cancel_right (List.tail_eq_of_cons_eq hsegments)]
  · exact absurd (List.tail_eq_of_cons_eq hsegments) (hfirst hp)
  · exact absurd (List.tail_eq_of_cons_eq hsegments).symm (hfirst hq)
  · rw [List.append_cancel_right (List.tail_eq_of_cons_eq (List.tail_eq_of_cons_eq hsegments))]

/-- A path below a directory ends in the last of its names. -/
theorem fileName_join (hcwd : IsPlace t.cwd) (hnames : IsPlace (names ++ [name])) :
    Path.fileName (Path.join (Path.absolute t.cwdPath path) (joinSegments (names ++ [name]))) =
      name := by
  obtain ⟨pre, p, -, hp, hnormal⟩ := exists_absolute_eq_append hcwd path
  have hname := (hnames name (by simp)).2
  rw [hnormal, join_append_pathTo hp hnames (by simp), ← List.append_assoc, pathTo_concat,
    ← String.append_assoc, ← String.append_assoc, Path.fileName_append_slash _ hname]

/-- The last name of a path in its normal form, unless the path leads to the root. -/
theorem isName_fileName_absolute (hcwd : IsPlace t.cwd)
    (h : Path.fileName (Path.absolute t.cwdPath path) ≠ "") :
    Path.IsName (Path.fileName (Path.absolute t.cwdPath path)) ∧
      '/' ∉ (Path.fileName (Path.absolute t.cwdPath path)).toList := by
  obtain ⟨pre, p, hpre, hp, hnormal⟩ := exists_absolute_eq_append hcwd path
  rw [hnormal] at h ⊢
  by_cases hne : p = []
  · subst hne
    rcases hpre with rfl | ⟨rfl, -⟩
    · exact absurd (by decide) h
    · exact absurd (by decide) h
  · obtain ⟨q, name, rfl⟩ : ∃ q name, p = q ++ [name] :=
      ⟨_, _, (List.dropLast_concat_getLast hne).symm⟩
    have hname := hp name (by simp)
    rwa [pathTo_concat, ← String.append_assoc, ← String.append_assoc,
      Path.fileName_append_slash _ hname.2]

/-! ### Changes -/

theorem IsPlace.take (h : IsPlace p) (n : Nat) : IsPlace (p.take n) :=
  fun name hname => h name (List.mem_of_mem_take hname)

protected theorem IsNamed.ensure (ht : t.IsNamed) (hp : IsPlace p) : (t.ensure p).IsNamed := by
  unfold ensure
  split
  · exact ht
  · refine ⟨ht.cwd, fun n hn => ?_⟩
    rcases List.mem_append.1 hn with hn | hn
    · exact ht.places n hn
    · rw [List.mem_singleton.1 hn]
      exact hp

protected theorem IsNamed.ensureAbove (ht : t.IsNamed) (hp : IsPlace p) :
    (t.ensureAbove p).IsNamed := by
  have hrun (ps : List Place) (hps : ∀ q ∈ ps, IsPlace q) :
      (ps.foldl FileTree.ensure t).IsNamed := by
    induction ps generalizing t with
    | nil => exact ht
    | cons q ps ih =>
        obtain ⟨hq, hrest⟩ := List.forall_mem_cons.1 hps
        exact ih (ht.ensure hq) hrest
  refine hrun _ fun q hq => ?_
  obtain ⟨n, -, rfl⟩ := List.mem_map.1 hq
  exact hp.take n

protected theorem IsNamed.put (ht : t.IsNamed) (hp : IsPlace p) (node : FileNode) :
    (t.put p node).IsNamed := by
  have habove := ht.ensureAbove hp
  refine ⟨habove.cwd, fun n hn => ?_⟩
  rcases List.mem_append.1 hn with hn | hn
  · exact habove.places n (List.mem_filter.1 hn).1
  · rw [List.mem_singleton.1 hn]
    exact hp

/-- A change at a place that its path tells. -/
theorem IsNamed.changeAt (ht : t.IsNamed) {place : Except SearchFailure Place}
    {change : Place → FileTree} (hplace : ∀ p, place = .ok p → IsPlace p)
    (hchange : ∀ p, IsPlace p → (change p).IsNamed) : (t.changeAt place change).IsNamed := by
  cases place with
  | error e => exact ht
  | ok p => exact hchange p (hplace p rfl)

/-- **A tree of places that their paths tell stays one** as files are written and directories are
made, whatever their paths. -/
theorem IsNamed.writeFile (ht : t.IsNamed) (path : String) (bytes : List UInt8) :
    (t.writeFile path bytes).IsNamed :=
  ht.changeAt (fun _ h => ht.isPlace_of_realPlace h) fun _ hp => ht.put hp (.file bytes)

theorem IsNamed.makeDirectory (ht : t.IsNamed) (path : String) :
    (t.makeDirectory path).IsNamed :=
  ht.changeAt (fun _ h => ht.isPlace_of_realPlace h) fun _ hp => (ht.ensureAbove hp).ensure hp

/-- It stays one as links are made, of any name but that of the root. -/
theorem IsNamed.makeLink (ht : t.IsNamed) (target : String)
    (h : Path.fileName (Path.absolute t.cwdPath path) ≠ "") : (t.makeLink path target).IsNamed := by
  refine ht.changeAt (fun p hentry => ?_) fun _ hp => ht.put hp (.link target)
  obtain ⟨q, hq, rfl⟩ := Except.map_eq_ok_iff.1 hentry
  refine (ht.isPlace_of_realPlace hq).append fun name hname => ?_
  rw [List.mem_singleton.1 hname]
  exact isName_fileName_absolute ht.cwd h

theorem IsNamed.removePath (ht : t.IsNamed) (path : String) : (t.removePath path).IsNamed := by
  unfold FileTree.removePath FileTree.changeAt
  split
  · exact ht
  · exact ⟨ht.cwd, fun n hn => ht.places n (List.mem_filter.1 hn).1⟩

end Citations.FileTree

/-
**Following a path and its normal form.**

The normal form of a path is made on the text alone: `..` cancels the name before it.  A path that
is followed through the tree goes up from the place where it stands, and that is another one behind
a link.  Only there do the two part ways: where no `..` comes behind a link, the normal form leads
to the same place as the path.

Main definitions:

* `Citations.FileTree.climbsBehindLink` — whether `..` comes behind a link on a path.

Main results:

* `Citations.FileTree.locateWithin_append` — names that are followed without links can be followed
  first;
* `Citations.FileTree.locateWithin_clean` — clean names lead to the same place, if no link is on the
  way;
* `Citations.FileTree.locate_normalize`, `Citations.FileTree.isFile_normalize` — **the normal form
  of a path leads to the same place**, unless `..` comes behind a link;
* `Citations.FileTree.locate_tidy` — a tidy path always leads to the same place.
-/

import Citations.FileTree
import Citations.Proofs.Path.Normal
import Mathlib.Data.List.Induction
import Mathlib.Tactic.Tauto

set_option relaxedAutoImplicit false
set_option autoImplicit false

namespace Citations.FileTree

open Citations.Path (IsName cleanStep clean)

variable {t : FileTree} {here p q : Place} {name : String} {xs ys names : List String}

/-! ### One name -/

/-- The place below or above another one that a single name leads to, as far as the text goes. -/
def beside (here : Place) (name : String) : Place :=
  if name = "" ∨ name = "." then here
  else if name = ".." then here.dropLast
  else here ++ [name]

theorem beside_of_isName (here : Place) (h : IsName name) : beside here name = here ++ [name] := by
  rw [beside, if_neg (by simp [h.1, h.2.1]), if_neg h.2.2]

/-- What a single name does, whatever is left to do behind it: it cannot be followed, it leads on,
or it is a link. -/
theorem walk_cons_cases (t : FileTree) (here : Place) (name : String) :
    (∃ e, e ≠ Fault.tooManyLinks ∧
      ∀ follow rest, t.walk follow here (name :: rest) = .error e) ∨
    (t.get? here = some .directory ∧
      ∀ follow rest, t.walk follow here (name :: rest) = t.walk follow (beside here name) rest) ∨
    (IsName name ∧ ∃ target, ∀ follow rest, t.walk follow here (name :: rest) =
      follow (start here target).1 ((start here target).2 ++ rest)) := by
  simp only [walk, beside]
  by_cases hdir : t.get? here = some .directory
  · simp only [hdir, ne_eq, not_true_eq_false, if_false]
    by_cases hidle : name = "" ∨ name = "."
    · exact .inr (.inl (by simp [hidle]))
    by_cases hup : name = ".."
    · exact .inr (.inl (by simp [hup]))
    simp only [hidle, hup, if_false]
    by_cases hlength : maxNameLength < name.utf8ByteSize
    · exact .inl ⟨.nameTooLong, by simp, by simp [hlength]⟩
    simp only [hlength, if_false]
    cases t.get? (here ++ [name]) with
    | none => exact .inl ⟨.notFound, by simp, by simp⟩
    | some n =>
        cases n with
        | link target =>
            rw [not_or] at hidle
            exact .inr (.inr ⟨⟨hidle.1, hidle.2, hup⟩, target, by simp⟩)
        | directory => exact .inr (.inl (by simp))
        | file bytes => exact .inr (.inl (by simp))
  · exact .inl ⟨.notDirectory, by simp, by simp [hdir]⟩

theorem locateWithin_eq (t : FileTree) (links : Nat) :
    ∃ follow, t.locateWithin links = t.walk follow := by
  cases links with
  | zero => exact ⟨_, rfl⟩
  | succ links => exact ⟨_, rfl⟩

/-! ### Names that lead through no link -/

/-- Names that are followed without links can be followed first. -/
theorem locateWithin_append (h : t.locateWithin 0 here xs = .ok q) (links : Nat)
    (ys : List String) : t.locateWithin links here (xs ++ ys) = t.locateWithin links q ys := by
  obtain ⟨follow, hfollow⟩ := t.locateWithin_eq links
  rw [hfollow]
  rw [locateWithin] at h
  induction xs generalizing here with
  | nil =>
      cases h
      rfl
  | cons name xs ih =>
      rw [List.cons_append]
      rcases t.walk_cons_cases here name with ⟨e, -, hw⟩ | ⟨-, hw⟩ | ⟨-, target, hw⟩
      · rw [hw] at h
        cases h
      · rw [hw] at h ⊢
        exact ih h
      · rw [hw] at h
        cases h

/-- Names that can be followed start with names that are followed without links, unless there is a
link among those. -/
theorem exists_locateWithin_of_append {links : Nat}
    (h : t.locateWithin links here (xs ++ ys) = .ok q) :
    (∃ p, t.locateWithin 0 here xs = .ok p) ∨
      t.locateWithin 0 here xs = .error .tooManyLinks := by
  obtain ⟨follow, hfollow⟩ := t.locateWithin_eq links
  rw [hfollow] at h
  rw [locateWithin]
  induction xs generalizing here with
  | nil => exact .inl ⟨here, rfl⟩
  | cons name xs ih =>
      rw [List.cons_append] at h
      rcases t.walk_cons_cases here name with ⟨e, -, hw⟩ | ⟨-, hw⟩ | ⟨-, target, hw⟩
      · rw [hw] at h
        cases h
      · rw [hw] at h ⊢
        exact ih h
      · exact .inr (hw _ _)

/-- Names that are followed without links are followed one after another. -/
theorem locateWithin_zero_append :
    t.locateWithin 0 here (xs ++ ys) = .ok q ↔
      ∃ p, t.locateWithin 0 here xs = .ok p ∧ t.locateWithin 0 p ys = .ok q := by
  constructor
  · intro h
    induction xs generalizing here with
    | nil => exact ⟨here, rfl, h⟩
    | cons name xs ih =>
        rw [List.cons_append] at h
        rw [locateWithin] at h ih ⊢
        rcases t.walk_cons_cases here name with ⟨e, -, hw⟩ | ⟨-, hw⟩ | ⟨-, target, hw⟩
        · rw [hw] at h
          cases h
        · rw [hw] at h ⊢
          exact ih h
        · rw [hw] at h
          cases h
  · rintro ⟨p, hp, hq⟩
    rw [locateWithin_append hp, hq]

theorem eq_beside_of_locateWithin (h : t.locateWithin 0 p [name] = .ok q) :
    t.get? p = some .directory ∧ q = beside p name := by
  rw [locateWithin] at h
  rcases t.walk_cons_cases p name with ⟨e, -, hw⟩ | ⟨hdir, hw⟩ | ⟨-, target, hw⟩
  · rw [hw] at h
    cases h
  · rw [hw] at h
    cases h
    exact ⟨hdir, rfl⟩
  · rw [hw] at h
    cases h

/-- Segments that lead nowhere stay at a directory. -/
theorem locateWithin_of_idle (hdir : t.get? here = some .directory)
    (h : ∀ s ∈ xs, s = "" ∨ s = ".") : t.locateWithin 0 here xs = .ok here := by
  induction xs with
  | nil => rfl
  | cons s xs ih =>
      have hs := h s (List.mem_cons_self ..)
      have hrest := ih fun x hx => h x (List.mem_cons_of_mem _ hx)
      rw [locateWithin, walk, if_neg (by simp [hdir]), if_pos hs]
      exact hrest

/-! ### Clean names -/

/-- Clean names lead to the same place, if no link is on the way. -/
theorem locateWithin_clean {rooted : Bool} (hroot : rooted = true → here = []) :
    ∀ {xs : List String} {q : Place}, t.locateWithin 0 here xs = .ok q →
      t.locateWithin 0 here (clean rooted xs) = .ok q := by
  intro xs
  -- from the last name, since cleaning keeps what comes of the names before it
  induction xs using List.reverseRecOn with
  | nil => exact id
  | append_singleton xs s ih =>
      intro q h
      obtain ⟨p, hxs, hs⟩ := locateWithin_zero_append.1 h
      have hp := ih hxs
      obtain ⟨-, rfl⟩ := eq_beside_of_locateWithin hs
      have hclean := Path.isClean_reverse_clean rooted xs
      rw [Path.clean_append, List.foldl_cons, List.foldl_nil]
      generalize hkept : (clean rooted xs).reverse = kept at hclean
      rw [List.reverse_eq_iff] at hkept
      rw [hkept] at hp
      by_cases hidle : s = "" ∨ s = "."
      · rw [Path.cleanStep_of_idle hidle, beside, if_pos hidle]
        exact hp
      by_cases hup : s = ".."
      · subst hup
        cases hclean with
        | nil =>
            cases hp
            cases rooted with
            | true =>
                cases hroot rfl
                rfl
            | false => exact hs
        | @name top kept hname _ =>
            -- the name that is cancelled leads below the place that `..` goes back to
            rw [List.reverse_cons] at hp
            obtain ⟨p', hkept', htop⟩ := locateWithin_zero_append.1 hp
            obtain ⟨-, rfl⟩ := eq_beside_of_locateWithin htop
            have hcancel : cleanStep rooted (top :: kept) ".." = kept := by
              simp [cleanStep, hname.2.2]
            have hback : beside (beside p' top) ".." = p' := by
              rw [beside_of_isName p' hname]
              simp [beside]
            rw [hcancel, hback]
            exact hkept'
        | up _ _ _ =>
            have hkeep : ∀ kept, cleanStep rooted (".." :: kept) ".." = ".." :: ".." :: kept := by
              simp [cleanStep]
            rw [hkeep, List.reverse_cons]
            exact locateWithin_zero_append.2 ⟨p, hp, hs⟩
      · rw [not_or] at hidle
        rw [Path.cleanStep_of_isName ⟨hidle.1, hidle.2, hup⟩, List.reverse_cons]
        exact locateWithin_zero_append.2 ⟨p, hp, hs⟩

/-- Whether a segment leads anywhere. -/
def isStep (s : String) : Bool := s ≠ "" ∧ s ≠ "."

theorem isStep_eq_false_iff {s : String} : isStep s = false ↔ s = "" ∨ s = "." := by
  simp only [isStep, decide_eq_false_iff_not]
  tauto

/-- Segments that lead nowhere can be left out, behind links as well. -/
theorem walk_filter {follow : Place → List String → Except Fault Place}
    (hfollow : ∀ (here : Place) (xs ys : List String) (q : Place),
      follow here (xs ++ ys) = .ok q → follow here (xs ++ ys.filter isStep) = .ok q)
    (here : Place) (xs ys : List String) (q : Place) (h : t.walk follow here (xs ++ ys) = .ok q) :
    t.walk follow here (xs ++ ys.filter isStep) = .ok q := by
  -- the target of a link goes in front, so that the names to be left out are not always the first
  induction xs generalizing here with
  | nil =>
      rw [List.nil_append] at h ⊢
      induction ys generalizing here with
      | nil => exact h
      | cons name ys ih =>
          rcases t.walk_cons_cases here name with ⟨e, -, hw⟩ | ⟨-, hw⟩ | ⟨hname, target, hw⟩
          · rw [hw] at h
            cases h
          · rw [hw] at h
            cases hstep : isStep name with
            | true =>
                rw [List.filter_cons_of_pos hstep, hw]
                exact ih _ h
            | false =>
                rw [List.filter_cons_of_neg (by simp [hstep])]
                rw [beside, if_pos (isStep_eq_false_iff.1 hstep)] at h
                exact ih _ h
          · have hstep : isStep name = true := by simp [isStep, hname.1, hname.2.1]
            rw [hw] at h
            rw [List.filter_cons_of_pos hstep, hw]
            exact hfollow _ _ _ _ h
  | cons name xs ih =>
      rw [List.cons_append] at h ⊢
      rcases t.walk_cons_cases here name with ⟨e, -, hw⟩ | ⟨-, hw⟩ | ⟨-, target, hw⟩
      · rw [hw] at h
        cases h
      · rw [hw] at h ⊢
        exact ih _ h
      · rw [hw, ← List.append_assoc] at h ⊢
        exact hfollow _ _ _ _ h

theorem locateWithin_filter (links : Nat) :
    ∀ (here : Place) (xs ys : List String) (q : Place),
      t.locateWithin links here (xs ++ ys) = .ok q →
        t.locateWithin links here (xs ++ ys.filter isStep) = .ok q := by
  induction links with
  | zero => exact walk_filter fun _ _ _ _ h => by cases h
  | succ links ih => exact walk_filter ih

/-- Behind the last `..`, cleaning only leaves out what leads nowhere. -/
theorem clean_append_of_notMem {rooted : Bool} (xs : List String) {ys : List String}
    (h : ".." ∉ ys) : clean rooted (xs ++ ys) = clean rooted xs ++ ys.filter isStep := by
  have hfold : ∀ kept : List String,
      (ys.foldl (cleanStep rooted) kept).reverse = kept.reverse ++ ys.filter isStep := by
    induction ys with
    | nil => simp
    | cons s ys ih =>
        intro kept
        rw [List.mem_cons, not_or] at h
        have hrest := ih h.2
        rw [List.foldl_cons, hrest]
        cases hstep : isStep s with
        | true =>
            have hs : s ≠ "" ∧ s ≠ "." := by simpa [isStep] using hstep
            rw [Path.cleanStep_of_isName ⟨hs.1, hs.2, Ne.symm h.1⟩,
              List.filter_cons_of_pos hstep]
            simp
        | false =>
            rw [Path.cleanStep_of_idle (isStep_eq_false_iff.1 hstep),
              List.filter_cons_of_neg (by simp [hstep])]
  rw [Path.clean_append, hfold, List.reverse_reverse]

/-! ### The normal form of a path -/

/-- Whether names lead through a link. -/
def meetsLink (t : FileTree) (here : Place) (names : List String) : Bool :=
  match t.locateWithin 0 here names with
  | .error .tooManyLinks => true
  | _ => false

/-- **Whether `..` comes behind a link on a path**: then the way that goes up is not the one on
which the path went down. -/
def climbsBehindLink (t : FileTree) (path : String) : Bool :=
  let segs := Path.segments path
  (List.range segs.length).any fun i =>
    segs[i]? == some ".." && t.meetsLink (start t.cwd path).1 (segs.take i)

theorem not_meetsLink_of_not_climbsBehindLink {path : String}
    (hclimb : t.climbsBehindLink path = false) {front back : List String}
    (h : Path.segments path = front ++ ".." :: back) :
    t.locateWithin 0 (start t.cwd path).1 front ≠ .error .tooManyLinks := by
  intro hlink
  have hi : front.length ∈ List.range (Path.segments path).length := by
    rw [List.mem_range, h]
    simp
  have hnot := List.any_eq_false.1 hclimb _ hi
  simp [h, meetsLink, hlink] at hnot

/-- Segments up to the last `..`, and those behind it. -/
theorem exists_split_at_last_up (segs : List String) :
    ∃ front back, segs = front ++ back ∧ ".." ∉ back ∧
      (front = [] ∨ ∃ rest, front = rest ++ [".."]) := by
  induction segs using List.reverseRecOn with
  | nil => exact ⟨[], [], rfl, by simp, .inl rfl⟩
  | append_singleton segs s ih =>
      by_cases hs : s = ".."
      · exact ⟨segs ++ [s], [], by simp, by simp, .inr ⟨segs, by rw [hs]⟩⟩
      · obtain ⟨front, back, rfl, hback, hfront⟩ := ih
        refine ⟨front, back ++ [s], by simp, ?_, hfront⟩
        simp [hback, Ne.symm hs]

/-- The names up to the last `..` are followed without links, if it does not come behind one. -/
theorem exists_locateWithin_of_not_climbsBehindLink {path : String} {front back : List String}
    {links : Nat} (hclimb : t.climbsBehindLink path = false)
    (hsegs : Path.segments path = front ++ back)
    (hfront : front = [] ∨ ∃ rest, front = rest ++ [".."])
    (h : t.locateWithin links (start t.cwd path).1 (front ++ back) = .ok q) :
    ∃ p, t.locateWithin 0 (start t.cwd path).1 front = .ok p := by
  rcases hfront with rfl | ⟨rest, rfl⟩
  · exact ⟨_, rfl⟩
  · rw [List.append_assoc] at h hsegs
    rcases exists_locateWithin_of_append h with ⟨p, hp⟩ | hlink
    · -- going up from a directory needs no link
      rw [locateWithin_append hp] at h
      rcases exists_locateWithin_of_append h with ⟨p', hp'⟩ | hlink
      · exact ⟨p', locateWithin_zero_append.2 ⟨p, hp, hp'⟩⟩
      · rw [locateWithin] at hlink
        rcases t.walk_cons_cases p ".." with ⟨e, he, hw⟩ | ⟨-, hw⟩ | ⟨hname, -⟩
        · rw [hw] at hlink
          exact absurd (Except.error.inj hlink) he
        · rw [hw] at hlink
          cases hlink
        · exact absurd rfl hname.2.2
    · exact absurd hlink (not_meetsLink_of_not_climbsBehindLink hclimb hsegs)

/-- Names lead to the same place once they are cleaned, if those up to the last `..` are followed
without links. -/
theorem locateWithin_clean_append {rooted : Bool} (hroot : rooted = true → here = [])
    {front back : List String} {links : Nat} (hback : ".." ∉ back)
    (hfront : t.locateWithin 0 here front = .ok p) (h : t.locateWithin links p back = .ok q) :
    t.locateWithin links here (clean rooted (front ++ back)) = .ok q := by
  rw [clean_append_of_notMem _ hback]
  refine locateWithin_filter _ _ _ _ _ ?_
  rw [locateWithin_append (locateWithin_clean hroot hfront)]
  exact h

/-- The first segment of a path is looked for in a directory. -/
theorem get?_of_locateWithin {links : Nat} (hne : names ≠ [])
    (h : t.locateWithin links here names = .ok q) : t.get? here = some .directory := by
  obtain ⟨follow, hfollow⟩ := t.locateWithin_eq links
  rw [hfollow] at h
  cases names with
  | nil => exact absurd rfl hne
  | cons name rest =>
      rw [walk] at h
      by_contra hdir
      rw [if_pos hdir] at h
      cases h

/-- A path that is not too long is followed name by name. -/
theorem locate_of_le {path : String} (h : path.utf8ByteSize ≤ maxPathLength) :
    t.locate path = t.locateWithin maxLinks (start t.cwd path).1 (Path.segments path) :=
  if_neg (Nat.not_lt.2 h)

theorem le_of_locate {path : String} (h : t.locate path = .ok q) :
    path.utf8ByteSize ≤ maxPathLength := by
  by_contra hlong
  rw [locate, if_pos (Nat.lt_of_not_le hlong)] at h
  cases h

/-- A path is followed in two parts, unless `..` comes behind a link: without links up to the last
`..`, and without going up from there. -/
theorem exists_parts_of_locate {path : String} (hclimb : t.climbsBehindLink path = false)
    (h : t.locate path = .ok q) :
    ∃ front back p, Path.segments path = front ++ back ∧ ".." ∉ back ∧
      t.locateWithin 0 (start t.cwd path).1 front = .ok p ∧
      t.locateWithin maxLinks p back = .ok q := by
  obtain ⟨front, back, hsegs, hback, hfront⟩ := exists_split_at_last_up (Path.segments path)
  rw [locate_of_le (le_of_locate h), hsegs] at h
  obtain ⟨p, hp⟩ := exists_locateWithin_of_not_climbsBehindLink hclimb hsegs hfront h
  rw [locateWithin_append hp] at h
  exact ⟨front, back, p, hsegs, hback, hp, h⟩

/-- **The normal form of a path leads to the same place**, unless `..` comes behind a link. -/
theorem locate_normalize {path : String} (hclimb : t.climbsBehindLink path = false)
    (h : t.locate path = .ok q) : t.locate (Path.normalize path) = .ok q := by
  by_cases hempty : path = ""
  · subst hempty
    exact h
  obtain ⟨front, back, p, hsegs, hback, hp, hq⟩ := exists_parts_of_locate hclimb h
  obtain ⟨lead, hnormal, hlead⟩ := Path.segments_normalize path
  have hlength := (Path.utf8ByteSize_normalize_le hempty).trans (le_of_locate h)
  rw [locate_of_le (le_of_locate h)] at h
  have hdir := get?_of_locateWithin (Path.segments_ne_nil path) h
  have hstart : (start t.cwd (Path.normalize path)).1 = (start t.cwd path).1 := by
    simp only [start, Path.isAbsolute_normalize]
  have hroot : Path.isAbsolute path = true → (start t.cwd path).1 = [] := fun ha => by
    simp [start, ha]
  rw [locate_of_le hlength, hstart, hnormal,
    locateWithin_append (locateWithin_of_idle hdir hlead), Path.cleaned, hsegs]
  exact locateWithin_clean_append hroot hback hp hq

/-- A tidy path leads to the same place. -/
theorem locate_tidy {path : String} (h : t.locate path = .ok q) :
    t.locate (Path.tidy path) = .ok q := by
  by_cases hempty : path = ""
  · subst hempty
    exact h
  obtain ⟨lead, htidy, hlead⟩ := Path.segments_tidy path
  have hlength := (Path.utf8ByteSize_tidy_le hempty).trans (le_of_locate h)
  rw [locate_of_le (le_of_locate h)] at h
  have hdir := get?_of_locateWithin (Path.segments_ne_nil path) h
  have hstart : (start t.cwd (Path.tidy path)).1 = (start t.cwd path).1 := by
    simp only [start, Path.isAbsolute_tidy]
  rw [locate_of_le hlength, hstart, htidy, locateWithin_append (locateWithin_of_idle hdir hlead)]
  exact locateWithin_filter maxLinks _ [] _ q h

theorem exists_locate_of_isFile {path : String} (h : t.isFile path = true) :
    ∃ q, t.locate path = .ok q := by
  unfold isFile at h
  cases hq : t.locate path with
  | error e =>
      rw [hq] at h
      cases h
  | ok q => exact ⟨q, rfl⟩

/-- **The normal form of a path leads to a file if the path does**, unless `..` comes behind a
link. -/
theorem isFile_normalize {path : String} (hclimb : t.climbsBehindLink path = false)
    (h : t.isFile path = true) : t.isFile (Path.normalize path) = true := by
  obtain ⟨q, hq⟩ := exists_locate_of_isFile h
  rw [isFile, locate_normalize hclimb hq]
  rwa [isFile, hq] at h

end Citations.FileTree

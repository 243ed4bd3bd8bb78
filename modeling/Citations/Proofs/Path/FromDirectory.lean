/-
**Paths seen from a directory.**

Seen from a directory, a path becomes an absolute one in normal form.  It does not matter when that
is done: whatever is joined to a path, taken off it or resolved against it comes to the same once it
is seen from the directory.  Behind this is that following a path is a matter of its segments, one
after another: joining two paths follows the one and then the other, and following the directory of
a path leaves just the last name to be followed.

Main definitions:

* `Citations.Path.keptBehind` — the names that are kept once a path is followed.

Main results:

* `Citations.Path.keptBehind_join`, `Citations.Path.keptBehind_directory` — following two paths that
  are joined, and the two parts of one path;
* `Citations.Path.absolute_join`, `Citations.Path.absolute_directory`,
  `Citations.Path.absolute_normalize` — **joining, taking the directory and normalising look the
  same from a directory**;
* `Citations.Path.absolute_resolve`, `Citations.Path.relativeToDocument_absolute` — so do the target
  of a path in a document, and the way to a file from a document.
-/

import Citations.Proofs.FileTree.Way
import Mathlib.Data.List.Induction

set_option relaxedAutoImplicit false
set_option autoImplicit false

namespace Citations.Path

variable {a b p q cwd raw source target : String} {kept : List String}

/-! ### Following a path -/

/-- The names that are kept once a path is followed from where some are kept, last one first. -/
def keptBehind (kept : List String) (p : String) : List String :=
  (segments p).foldl (cleanStep true) kept

@[simp] theorem keptBehind_empty (kept : List String) : keptBehind kept "" = kept := rfl

theorem keptBehind_append_slash (kept : List String) (a b : String) :
    keptBehind kept (a ++ "/" ++ b) = keptBehind (keptBehind kept a) b := by
  rw [keptBehind, segments_append_slash, List.foldl_append]
  rfl

/-- A slash at the end leads nowhere. -/
theorem keptBehind_append_last (kept : List String) (a : String) :
    keptBehind kept (a ++ "/") = keptBehind kept a := by
  have h := keptBehind_append_slash kept a ""
  rwa [String.append_empty, keptBehind_empty] at h

theorem keptBehind_of_slash_notMem (h : '/' ∉ p.toList) (kept : List String) :
    keptBehind kept p = cleanStep true kept p := by
  rw [keptBehind, segments_of_notMem h]
  rfl

/-- Following two paths that are joined is following one after the other. -/
theorem keptBehind_join (h : isAbsolute b = false) (kept : List String) (a : String) :
    keptBehind kept (join a b) = keptBehind (keptBehind kept a) b := by
  rw [join, if_neg (by simp [h])]
  split
  · rename_i hend
    rcases hend with rfl | hlast
    · rw [String.empty_append, keptBehind_empty]
    · obtain ⟨cs, hcs⟩ := List.getLast?_eq_some_iff.1 hlast
      obtain rfl : a = String.ofList cs ++ "/" := String.toList_inj.1 (by simp [hcs])
      rw [keptBehind_append_slash, keptBehind_append_last]
  · exact keptBehind_append_slash kept a b

/-- A path with a slash is what stands before its last slash, and its last name. -/
theorem exists_eq_append_slash (h : '/' ∈ p.toList) :
    ∃ before name, '/' ∉ name.toList ∧ p = before ++ "/" ++ name := by
  have hsplit : p.toList.reverse.takeWhile (· ≠ '/') ++ p.toList.reverse.dropWhile (· ≠ '/') =
      p.toList.reverse := List.takeWhile_append_dropWhile
  cases hdrop : p.toList.reverse.dropWhile (· ≠ '/') with
  | nil =>
      rw [List.dropWhile_eq_nil_iff] at hdrop
      simpa using hdrop '/' (List.mem_reverse.2 h)
  | cons c cs =>
      have hc : c = '/' := by
        have hhead := List.head?_dropWhile_not (· ≠ '/') p.toList.reverse
        rw [hdrop] at hhead
        simpa using hhead
      subst hc
      refine ⟨String.ofList cs.reverse, fileName p, slash_notMem_fileName p, ?_⟩
      apply String.toList_inj.1
      rw [hdrop] at hsplit
      rw [← List.reverse_inj, ← hsplit, fileName]
      simp

/-- The last segment of a path is its last name. -/
theorem exists_segments_eq_concat (p : String) : ∃ init, segments p = init ++ [fileName p] := by
  by_cases h : '/' ∈ p.toList
  · obtain ⟨before, name, hname, rfl⟩ := exists_eq_append_slash h
    refine ⟨segments before, ?_⟩
    rw [segments_append_slash, segments_of_notMem hname, fileName_append_slash before hname]
  · exact ⟨[], by rw [segments_of_notMem h, fileName_of_slash_notMem h]; rfl⟩

theorem directory_of_slash_notMem (h : '/' ∉ p.toList) : directory p = "" := by
  have hbefore : p.toList.reverse.dropWhile (· ≠ '/') = [] :=
    List.dropWhile_eq_nil_iff.2 (ne_slash_of_mem_reverse h)
  rw [directory, hbefore]
  rfl

theorem keptBehind_dropWhile (kept : List String) (cs : List Char) :
    keptBehind kept (String.ofList (cs.dropWhile (· = '/')).reverse) =
      keptBehind kept (String.ofList cs.reverse) := by
  induction cs with
  | nil => rfl
  | cons c cs ih =>
      by_cases hc : c = '/'
      · have hend : String.ofList ('/' :: cs).reverse = String.ofList cs.reverse ++ "/" :=
          String.toList_inj.1 (by simp)
        rw [List.dropWhile_cons_of_pos (by simpa using hc), ih, hc, hend, keptBehind_append_last]
      · rw [List.dropWhile_cons_of_neg (by simpa using hc)]

/-- Behind the directory of a path, just its last name is left to be followed. -/
theorem keptBehind_directory (kept : List String) (p : String) :
    keptBehind (keptBehind kept (directory p)) (fileName p) = keptBehind kept p := by
  by_cases h : '/' ∈ p.toList
  · obtain ⟨before, name, hname, rfl⟩ := exists_eq_append_slash h
    have hdirectory : keptBehind kept (directory (before ++ "/" ++ name)) =
        keptBehind kept before := by
      rw [directory_append_slash before hname]
      split
      · exact keptBehind_append_last kept before
      · rw [keptBehind_dropWhile, List.reverse_reverse, String.ofList_toList]
    rw [hdirectory, fileName_append_slash before hname, keptBehind_append_slash]
  · rw [directory_of_slash_notMem h, fileName_of_slash_notMem h, keptBehind_empty]

/-- Cleaning the segments of a relative path first changes nothing. -/
theorem foldl_cleanStep_clean (segs kept : List String) :
    (clean false segs).foldl (cleanStep true) kept = segs.foldl (cleanStep true) kept := by
  induction segs using List.reverseRecOn with
  | nil => rfl
  | append_singleton segs s ih =>
      have hclean := isClean_reverse_clean false segs
      rw [clean_append, List.foldl_cons, List.foldl_nil, List.foldl_append, List.foldl_cons,
        List.foldl_nil, ← ih]
      generalize hnames : (clean false segs).reverse = names at hclean
      rw [List.reverse_eq_iff] at hnames
      rw [hnames]
      by_cases hidle : s = "" ∨ s = "."
      · rw [cleanStep_of_idle hidle, cleanStep_of_idle hidle]
      by_cases hup : s = ".."
      · subst hup
        cases hclean with
        | nil => rfl
        | @name top rest htop _ =>
            -- the name that is cancelled was the last one to be kept
            have hcancel {r : Bool} (others : List String) :
                cleanStep r (top :: others) ".." = others := by
              simp [cleanStep, htop.2.2]
            rw [hcancel, List.reverse_cons, List.foldl_append, List.foldl_cons, List.foldl_nil,
              cleanStep_of_isName htop, hcancel]
        | @up rest _ _ _ =>
            have hkeep : cleanStep false (".." :: rest) ".." = ".." :: ".." :: rest := by
              simp [cleanStep]
            rw [hkeep, List.reverse_cons, List.foldl_append]
            rfl
      · rw [not_or] at hidle
        rw [cleanStep_of_isName ⟨hidle.1, hidle.2, hup⟩, List.reverse_cons, List.foldl_append]
        rfl

/-- A relative path leads where its normal form leads. -/
theorem keptBehind_normalize (h : isAbsolute p = false) (kept : List String) :
    keptBehind kept (normalize p) = keptBehind kept p := by
  obtain ⟨lead, hsegments, hlead⟩ := segments_normalize p
  rw [keptBehind, hsegments, List.foldl_append, foldl_cleanStep_of_idle hlead, cleaned, h,
    foldl_cleanStep_clean]
  rfl

theorem reverse_keptBehind (h : isAbsolute p = true) : (keptBehind [] p).reverse = cleaned p := by
  rw [cleaned, h]
  rfl

theorem keptBehind_normalize_nil (p : String) (h : isAbsolute p = true) :
    keptBehind [] (normalize p) = keptBehind [] p := by
  have hsame : (keptBehind [] (normalize p)).reverse = (keptBehind [] p).reverse := by
    rw [reverse_keptBehind h, reverse_keptBehind (by simpa using h), cleaned_normalize]
  exact List.reverse_inj.1 hsame

/-! ### Roots -/

/-- The root of a path shows before anything but slashes is met. -/
theorem root_append (ha : isAbsolute a = true)
    (h : isAbsolute b = false ∨ ¬ a.toList.all (· = '/') = true) : root (a ++ b) = root a := by
  have hb : isAbsolute b = false → ∀ cs, b.toList ≠ '/' :: cs := by
    intro hb cs hcs
    simp [isAbsolute, hcs] at hb
  unfold root
  rw [String.toList_append]
  unfold isAbsolute at ha
  rcases hcs : a.toList with _ | ⟨c, _ | ⟨d, _ | ⟨e, cs⟩⟩⟩
  · simp [hcs] at ha
  · obtain rfl : c = '/' := by simpa [hcs] using ha
    have hrelative := hb (h.resolve_right (by simp [hcs]))
    cases hbs : b.toList with
    | nil => rfl
    | cons d ds =>
        have hd : d ≠ '/' := fun hd => hrelative ds (hd ▸ hbs)
        simp [hd]
  · obtain rfl : c = '/' := by simpa [hcs] using ha
    by_cases hd : d = '/'
    · subst hd
      have hrelative := hb (h.resolve_right (by simp [hcs]))
      cases hbs : b.toList with
      | nil => rfl
      | cons e es =>
          have he : e ≠ '/' := fun he => hrelative es (he ▸ hbs)
          simp [he]
    · simp [hd]
  · obtain rfl : c = '/' := by simpa [hcs] using ha
    by_cases hd : d = '/'
    · by_cases he : e = '/'
      · simp [hd, he]
      · simp [hd, he]
    · simp [hd]

theorem isAbsolute_of_append (h : a ≠ "") : isAbsolute (a ++ b) = isAbsolute a := by
  have hne : a.toList ≠ [] := by simpa using h
  unfold isAbsolute
  rw [String.toList_append]
  cases hcs : a.toList with
  | nil => exact absurd hcs hne
  | cons c cs => rfl

theorem isAbsolute_join_of_relative (h : isAbsolute b = false) :
    isAbsolute (join a b) = isAbsolute a := by
  rw [join, if_neg (by simp [h])]
  by_cases ha : a = ""
  · rw [if_pos (.inl ha), ha, String.empty_append, h]
    rfl
  · split
    · exact isAbsolute_of_append ha
    · rw [isAbsolute_of_append (by simp [String.append_eq_empty_iff]), isAbsolute_of_append ha]

theorem root_join (ha : isAbsolute a = true) (hb : isAbsolute b = false) :
    root (join a b) = root a := by
  rw [join, if_neg (by simp [hb])]
  split
  · exact root_append ha (.inl hb)
  · rename_i hend
    rw [not_or] at hend
    rw [String.append_assoc]
    refine root_append ha (.inr fun hall => ?_)
    -- a path of slashes ends in one
    have hne : a.toList ≠ [] := by simpa using hend.1
    have hlast := List.getLast?_eq_some_getLast hne
    have hslash : a.toList.getLast hne = '/' := by
      simpa using List.all_eq_true.1 hall _ (List.getLast_mem hne)
    exact hend.2 (hlast.trans (congrArg some hslash))

/-- The text before the slashes at the end of another one. -/
theorem exists_eq_append_dropWhile (a : String) :
    ∃ slashes, a = String.ofList (a.toList.reverse.dropWhile (· = '/')).reverse ++ slashes := by
  refine ⟨String.ofList (a.toList.reverse.takeWhile (· = '/')).reverse, ?_⟩
  apply String.toList_inj.1
  rw [String.toList_append, String.toList_ofList, String.toList_ofList, ← List.reverse_append,
    List.takeWhile_append_dropWhile, List.reverse_reverse]

/-- What is left of a text that is not all slashes without the slashes at its end. -/
theorem not_all_slashes_dropWhile (h : ¬ a.toList.all (· = '/') = true) :
    ¬ (String.ofList (a.toList.reverse.dropWhile (· = '/')).reverse).toList.all (· = '/') =
      true := by
  intro hall
  refine h (List.all_eq_true.2 fun c hc => ?_)
  have hsplit : a.toList.reverse.takeWhile (· = '/') ++ a.toList.reverse.dropWhile (· = '/') =
      a.toList.reverse := List.takeWhile_append_dropWhile
  rw [← List.mem_reverse, ← hsplit] at hc
  rcases List.mem_append.1 hc with hc | hc
  · have hslash := List.mem_takeWhile_imp hc
    exact hslash
  · exact List.all_eq_true.1 hall c (by simpa using hc)

/-- A path starts at the root exactly when its directory does, and at the same root. -/
theorem isAbsolute_directory_and_root (p : String) :
    isAbsolute (directory p) = isAbsolute p ∧
      (isAbsolute p = true → root (directory p) = root p) := by
  by_cases h : '/' ∈ p.toList
  · obtain ⟨before, name, hname, rfl⟩ := exists_eq_append_slash h
    rw [directory_append_slash before hname]
    split
    · have hne : before ++ "/" ≠ "" := by simp [String.append_eq_empty_iff]
      refine ⟨(isAbsolute_of_append hne).symm, fun habsolute => ?_⟩
      rw [isAbsolute_of_append hne] at habsolute
      exact (root_append habsolute (.inl (isAbsolute_of_slash_notMem hname))).symm
    · rename_i hall
      obtain ⟨slashes, hbefore⟩ := exists_eq_append_dropWhile before
      have hrest := not_all_slashes_dropWhile hall
      generalize String.ofList (before.toList.reverse.dropWhile (· = '/')).reverse = front
        at hbefore hrest ⊢
      have hne : front ≠ "" := by
        rintro rfl
        exact hrest rfl
      rw [hbefore, String.append_assoc, String.append_assoc]
      refine ⟨(isAbsolute_of_append hne).symm, fun habsolute => ?_⟩
      rw [isAbsolute_of_append hne] at habsolute
      exact (root_append habsolute (.inr hrest)).symm
  · have hp := isAbsolute_of_slash_notMem h
    rw [directory_of_slash_notMem h, hp]
    exact ⟨rfl, fun habsolute => by cases habsolute⟩

theorem isAbsolute_directory (p : String) : isAbsolute (directory p) = isAbsolute p :=
  (isAbsolute_directory_and_root p).1

theorem root_directory (h : isAbsolute p = true) : root (directory p) = root p :=
  (isAbsolute_directory_and_root p).2 h

/-- A second slash at the start stays with the directory. -/
theorem directory_slash_append (h : isAbsolute p = true) :
    directory ("/" ++ p) = "/" ++ directory p := by
  have hmem : '/' ∈ p.toList := by
    by_contra hslash
    rw [isAbsolute_of_slash_notMem hslash] at h
    cases h
  obtain ⟨before, name, hname, rfl⟩ := exists_eq_append_slash hmem
  have htext : "/" ++ (before ++ "/" ++ name) = "/" ++ before ++ "/" ++ name := by
    simp only [String.append_assoc]
  have hall : ("/" ++ before).toList.all (· = '/') = before.toList.all (· = '/') := by simp
  rw [htext, directory_append_slash _ hname, directory_append_slash _ hname, hall]
  split
  · exact String.append_assoc
  · rename_i hslashes
    have hne : before.toList.reverse.dropWhile (· = '/') ≠ [] := by
      intro hnil
      exact not_all_slashes_dropWhile hslashes (by rw [hnil]; rfl)
    apply String.toList_inj.1
    simp [List.dropWhile_append, hne]

/-- The target of a path in a document starts at the root if the path does, or that of the
document. -/
theorem isAbsolute_resolve (raw source : String) :
    isAbsolute (resolve raw source) = (isAbsolute raw || isAbsolute source) := by
  unfold resolve
  cases hraw : isAbsolute raw with
  | true => rw [if_pos rfl, isAbsolute_normalize, hraw, Bool.true_or]
  | false =>
      rw [if_neg (by simp), isAbsolute_normalize, isAbsolute_join_of_relative hraw,
        isAbsolute_directory, Bool.false_or]

/-! ### Seen from a directory -/

theorem isAbsolute_of_root_eq (hp : isAbsolute p = true) (hroot : root q = root p) :
    isAbsolute q = true := by
  by_contra hq
  have hempty : root q = "" := root_eq_empty_iff.2 (by simpa using hq)
  rw [root_eq_empty_iff.1 (hroot.symm.trans hempty)] at hp
  cases hp

/-- Absolute paths with one root that lead to the same names have one normal form. -/
theorem normalize_congr (hp : isAbsolute p = true) (hroot : root p = root q)
    (hkept : keptBehind [] p = keptBehind [] q) : normalize p = normalize q := by
  have hq : isAbsolute q = true := isAbsolute_of_root_eq hp hroot.symm
  rw [normalize_of_isAbsolute hp, normalize_of_isAbsolute hq, hroot, ← reverse_keptBehind hp,
    ← reverse_keptBehind hq, hkept]

/-- The two parts of an absolute path make up the same path in normal form. -/
theorem normalize_join_fileName (hp : isAbsolute p = true) :
    normalize (join (directory p) (fileName p)) = normalize p := by
  have hname : isAbsolute (fileName p) = false :=
    isAbsolute_of_slash_notMem (slash_notMem_fileName p)
  have hdirectory : isAbsolute (directory p) = true := (isAbsolute_directory p).trans hp
  refine normalize_congr (isAbsolute_join hdirectory _) ?_ ?_
  · rw [root_join hdirectory hname, root_directory hp]
  · rw [keptBehind_join hname, keptBehind_directory]

/-- The directory of a normal form, given the last name that is kept. -/
theorem directory_normalize {name : String} (hp : isAbsolute p = true) (hroot : root q = root p)
    (hname : '/' ∉ name.toList) (hkept : keptBehind [] p = name :: keptBehind [] q) :
    directory (normalize p) = normalize q := by
  have hq : isAbsolute q = true := isAbsolute_of_root_eq hp hroot
  have hplace : FileTree.IsPlace (cleaned q) := FileTree.isPlace_cleaned hq
  have hcleaned : cleaned p = cleaned q ++ [name] := by
    rw [← reverse_keptBehind hp, hkept, List.reverse_cons, reverse_keptBehind hq]
  have hdirectory := FileTree.directory_pathTo_concat hplace hname
  rw [normalize_of_isAbsolute hp, normalize_of_isAbsolute hq, hroot, hcleaned]
  rcases root_of_isAbsolute hp with hr | hr
  · rw [hr]
    exact hdirectory
  · have htwo (names : List String) :
        "//" ++ joinSegments names = "/" ++ FileTree.pathTo names := by
      rw [FileTree.pathTo, ← String.append_assoc]
      rfl
    rw [hr, htwo, htwo, directory_slash_append (FileTree.isAbsolute_pathTo _), hdirectory]

theorem absolute_of_isAbsolute (cwd : String) (h : isAbsolute p = true) :
    absolute cwd p = normalize p := by
  rw [absolute, if_pos h]

theorem absolute_of_not_isAbsolute (cwd : String) (h : isAbsolute p = false) :
    absolute cwd p = normalize (join cwd p) := by
  rw [absolute, if_neg (by simp [h])]

theorem isAbsolute_absolute (hcwd : isAbsolute cwd = true) (p : String) :
    isAbsolute (absolute cwd p) = true := by
  rw [absolute, isAbsolute_normalize]
  split
  · assumption
  · exact isAbsolute_join hcwd p

/-- Normalising a path makes no difference from a directory. -/
theorem absolute_normalize (hcwd : isAbsolute cwd = true) (p : String) :
    absolute cwd (normalize p) = absolute cwd p := by
  cases hp : isAbsolute p with
  | true =>
      rw [absolute_of_isAbsolute cwd hp, absolute_of_isAbsolute cwd (by simpa using hp),
        normalize_normalize]
  | false =>
      have hp' : isAbsolute (normalize p) = false := by simpa using hp
      rw [absolute_of_not_isAbsolute cwd hp, absolute_of_not_isAbsolute cwd hp']
      refine normalize_congr (isAbsolute_join hcwd _) ?_ ?_
      · rw [root_join hcwd hp', root_join hcwd hp]
      · rw [keptBehind_join hp', keptBehind_join hp, keptBehind_normalize hp]

/-- **Joining a path looks the same from a directory.** -/
theorem absolute_join (hcwd : isAbsolute cwd = true) (hb : isAbsolute b = false) (a : String) :
    absolute cwd (join a b) = normalize (join (absolute cwd a) b) := by
  have hjoin : isAbsolute (join a b) = isAbsolute a := isAbsolute_join_of_relative hb
  cases ha : isAbsolute a with
  | true =>
      have ha' : isAbsolute (normalize a) = true := by simpa using ha
      rw [absolute_of_isAbsolute cwd (hjoin.trans ha), absolute_of_isAbsolute cwd ha]
      refine normalize_congr (hjoin.trans ha) ?_ ?_
      · rw [root_join ha hb, root_join ha' hb, root_normalize]
      · rw [keptBehind_join hb, keptBehind_join hb, keptBehind_normalize_nil a ha]
  | false =>
      have hrooted : isAbsolute (join cwd a) = true := isAbsolute_join hcwd a
      have hrooted' : isAbsolute (normalize (join cwd a)) = true := by simpa using hrooted
      rw [absolute_of_not_isAbsolute cwd (hjoin.trans ha), absolute_of_not_isAbsolute cwd ha]
      refine normalize_congr (isAbsolute_join hcwd _) ?_ ?_
      · rw [root_join hcwd (hjoin.trans ha), root_join hrooted' hb, root_normalize,
          root_join hcwd ha]
      · rw [keptBehind_join (hjoin.trans ha), keptBehind_join hb, keptBehind_join hb,
          keptBehind_normalize_nil _ hrooted, keptBehind_join ha]

/-- **The directory of a path looks the same from a directory**, if the path ends in a name. -/
theorem absolute_directory (hcwd : isAbsolute cwd = true) (hname : IsName (fileName p)) :
    absolute cwd (directory p) = directory (absolute cwd p) := by
  have hslash := slash_notMem_fileName p
  have hkept (kept : List String) :
      keptBehind kept p = fileName p :: keptBehind kept (directory p) := by
    rw [← keptBehind_directory, keptBehind_of_slash_notMem hslash, cleanStep_of_isName hname]
  have hdirectory := isAbsolute_directory p
  cases hp : isAbsolute p with
  | true =>
      rw [absolute_of_isAbsolute cwd hp, absolute_of_isAbsolute cwd (hdirectory.trans hp)]
      exact (directory_normalize hp (root_directory hp) hslash (hkept [])).symm
  | false =>
      rw [absolute_of_not_isAbsolute cwd hp, absolute_of_not_isAbsolute cwd (hdirectory.trans hp)]
      refine (directory_normalize (isAbsolute_join hcwd p) ?_ hslash ?_).symm
      · rw [root_join hcwd (hdirectory.trans hp), root_join hcwd hp]
      · rw [keptBehind_join hp, keptBehind_join (hdirectory.trans hp), hkept]

/-- **The target of a path in a document looks the same from a directory**, if the path of the
document ends in a name. -/
theorem absolute_resolve (hcwd : isAbsolute cwd = true) (hname : IsName (fileName source))
    (raw : String) : absolute cwd (resolve raw source) = resolve raw (absolute cwd source) := by
  unfold resolve
  cases hraw : isAbsolute raw with
  | true =>
      rw [if_pos rfl, if_pos rfl, absolute_normalize hcwd, absolute_of_isAbsolute cwd hraw]
  | false =>
      rw [if_neg (by simp), if_neg (by simp), absolute_normalize hcwd, absolute_join hcwd hraw,
        absolute_directory hcwd hname]

/-- **The way to a file from a document looks the same from a directory**, if the path of the
document ends in a name. -/
theorem relativeToDocument_absolute (hcwd : isAbsolute cwd = true)
    (hname : IsName (fileName source)) (target : String) :
    relativeToDocument cwd (absolute cwd target) (absolute cwd source) =
      relativeToDocument cwd target source := by
  rw [relativeToDocument, relativeToDocument, ← absolute_directory hcwd hname, relative_eq_way,
    relative_eq_way, absolute_absolute hcwd, absolute_absolute hcwd]

end Citations.Path

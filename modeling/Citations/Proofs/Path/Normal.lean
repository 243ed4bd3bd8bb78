/-
**The normal form of a path, name by name.**

A path is a text, but what is done with it is best said of the list of its segments: joining two
paths appends the lists, and the normal form of a path is the clean list of its segments behind its
root.  Cleaning a list goes on from wherever cleaning a start of it has come to, so a path that
climbs out of one directory and down into another ends in the other, whatever the two have in
common.

Main definitions:

* `Citations.Path.IsName` — a segment that stands for a file or a directory below the one before;
* `Citations.Path.cleaned` — the names that are left of a path in its normal form;
* `Citations.Path.spelled` — the path that goes from a root through names.

Main results:

* `Citations.Path.segments_joinSegments` — segments joined with slashes are found again;
* `Citations.Path.segments_normalize`, `Citations.Path.segments_tidy` — the segments of a normal
  form and of a tidy path;
* `Citations.Path.utf8ByteSize_normalize_le` — a normal form is no longer than its path;
* `Citations.Path.directory_append_slash` — the directory of a path, given its last name;
* `Citations.Path.clean_append_climb` — **the way from one directory to another leads there**.
-/

import Citations.Path
import Mathlib.Algebra.Ring.Nat
import Mathlib.Data.List.TakeWhile

set_option relaxedAutoImplicit false
set_option autoImplicit false

namespace Citations.Path

/-! ### Pieces and segments -/

theorem slash_notMem_of_mem_pieces {cs q : List Char} (h : q ∈ pieces cs) : '/' ∉ q := by
  induction cs generalizing q with
  | nil =>
      rw [pieces, List.mem_singleton] at h
      simp [h]
  | cons c cs ih =>
      rw [pieces] at h
      split at h
      · rcases List.mem_cons.1 h with rfl | h
        · simp
        · exact ih h
      · rename_i hc
        cases hp : pieces cs with
        | nil => exact absurd hp (pieces_ne_nil cs)
        | cons p ps =>
            rw [hp] at h ih
            rcases List.mem_cons.1 h with rfl | h
            · have hp' : '/' ∉ p := ih (List.mem_cons_self ..)
              simp [Ne.symm hc, hp']
            · exact ih (List.mem_cons_of_mem _ h)

theorem pieces_append_slash (xs ys : List Char) :
    pieces (xs ++ '/' :: ys) = pieces xs ++ pieces ys := by
  induction xs with
  | nil => simp [pieces]
  | cons c xs ih =>
      rw [List.cons_append, pieces, pieces, ih]
      split
      · rfl
      · cases hp : pieces xs with
        | nil => exact absurd hp (pieces_ne_nil xs)
        | cons p ps => rfl

theorem pieces_of_notMem {cs : List Char} (h : '/' ∉ cs) : pieces cs = [cs] := by
  induction cs with
  | nil => rfl
  | cons c cs ih =>
      rw [List.mem_cons, not_or] at h
      rw [pieces, if_neg (Ne.symm h.1), ih h.2]

theorem segments_ne_nil (p : String) : segments p ≠ [] := by
  simp [segments, pieces_ne_nil]

theorem slash_notMem_of_mem_segments {p s : String} (h : s ∈ segments p) : '/' ∉ s.toList := by
  obtain ⟨q, hq, rfl⟩ := List.mem_map.1 h
  simpa using slash_notMem_of_mem_pieces hq

@[simp] theorem segments_empty : segments "" = [""] := rfl

theorem segments_of_notMem {s : String} (h : '/' ∉ s.toList) : segments s = [s] := by
  rw [segments, pieces_of_notMem h, List.map_singleton, String.ofList_toList]

theorem segments_append_slash (a b : String) :
    segments (a ++ "/" ++ b) = segments a ++ segments b := by
  have h : (a ++ "/" ++ b).toList = a.toList ++ '/' :: b.toList := by simp
  rw [segments, h, pieces_append_slash, List.map_append]
  rfl

theorem segments_slash_append (b : String) : segments ("/" ++ b) = "" :: segments b := by
  have h := segments_append_slash "" b
  rwa [String.empty_append, segments_empty, List.singleton_append] at h

@[simp] theorem joinSegments_nil : joinSegments [] = "" := rfl

@[simp] theorem joinSegments_singleton (s : String) : joinSegments [s] = s :=
  String.intercalate_singleton

theorem joinSegments_cons {s : String} {segs : List String} (h : segs ≠ []) :
    joinSegments (s :: segs) = s ++ "/" ++ joinSegments segs :=
  String.intercalate_cons_of_ne_nil h

theorem joinSegments_append {xs ys : List String} (hx : xs ≠ []) (hy : ys ≠ []) :
    joinSegments (xs ++ ys) = joinSegments xs ++ "/" ++ joinSegments ys := by
  induction xs with
  | nil => exact absurd rfl hx
  | cons x xs ih =>
      cases xs with
      | nil => simpa using joinSegments_cons hy
      | cons x' xs =>
          rw [List.cons_append, joinSegments_cons (by simp), ih (by simp),
            joinSegments_cons (List.cons_ne_nil x' xs)]
          simp only [String.append_assoc]

/-- Segments joined with slashes are found again. -/
theorem segments_joinSegments {segs : List String} (h : ∀ s ∈ segs, '/' ∉ s.toList)
    (hne : segs ≠ []) : segments (joinSegments segs) = segs := by
  induction segs with
  | nil => exact absurd rfl hne
  | cons s segs ih =>
      have hs := segments_of_notMem (h s (List.mem_cons_self ..))
      cases segs with
      | nil => rw [joinSegments_singleton, hs]
      | cons s' segs =>
          rw [joinSegments_cons (by simp), segments_append_slash, hs,
            ih (fun x hx => h x (List.mem_cons_of_mem _ hx)) (by simp), List.singleton_append]

theorem intercalate_pieces (cs : List Char) : ['/'].intercalate (pieces cs) = cs := by
  induction cs with
  | nil => rfl
  | cons c cs ih =>
      rw [pieces]
      cases hp : pieces cs with
      | nil => exact absurd hp (pieces_ne_nil cs)
      | cons q qs =>
          rw [hp] at ih
          split
          · rename_i hc
            rw [List.intercalate_cons_cons, ih, hc]
            rfl
          · cases qs with
            | nil => simpa using ih
            | cons q' qs =>
                rw [List.intercalate_cons_cons] at ih ⊢
                rw [← ih]
                simp

/-- A path is its segments with slashes between them. -/
theorem joinSegments_segments (p : String) : joinSegments (segments p) = p := by
  apply String.toList_inj.1
  rw [joinSegments, String.toList_intercalate, segments, List.map_map]
  simpa [Function.comp_def] using intercalate_pieces p.toList

/-! ### Cleaning -/

/-- A segment that stands for a file or a directory below the one before. -/
def IsName (s : String) : Prop := s ≠ "" ∧ s ≠ "." ∧ s ≠ ".."

theorem cleanStep_of_isName {rooted : Bool} {kept : List String} {s : String} (h : IsName s) :
    cleanStep rooted kept s = s :: kept := by
  unfold cleanStep
  rw [if_neg (by simp [h.1, h.2.1]), if_neg h.2.2]

theorem cleanStep_of_idle {rooted : Bool} {kept : List String} {s : String}
    (h : s = "" ∨ s = ".") : cleanStep rooted kept s = kept := if_pos h

/-- What has been kept of the segments so far, last one first: names, and above a relative path a
few `..` in front of them. -/
inductive IsClean (rooted : Bool) : List String → Prop where
  | nil : IsClean rooted []
  | name {s : String} {kept : List String} :
      IsName s → IsClean rooted kept → IsClean rooted (s :: kept)
  | up {kept : List String} :
      rooted = false → (∀ s ∈ kept, s = "..") → IsClean rooted kept →
      IsClean rooted (".." :: kept)

theorem IsClean.cleanStep {rooted : Bool} {kept : List String} (h : IsClean rooted kept)
    (s : String) : IsClean rooted (cleanStep rooted kept s) := by
  by_cases hidle : s = "" ∨ s = "."
  · rwa [cleanStep_of_idle hidle]
  by_cases hup : s = ".."
  · unfold Path.cleanStep
    rw [if_neg hidle, if_pos hup]
    cases h with
    | nil =>
        cases rooted with
        | true => exact .nil
        | false => exact .up rfl (by simp) .nil
    | name hname hkept =>
        dsimp only
        rwa [if_neg hname.2.2]
    | up hrooted hkept hclean =>
        dsimp only
        rw [if_pos rfl]
        refine .up hrooted (fun x hx => ?_) (.up hrooted hkept hclean)
        rcases List.mem_cons.1 hx with rfl | hx
        · rfl
        · exact hkept x hx
  · rw [not_or] at hidle
    rw [cleanStep_of_isName ⟨hidle.1, hidle.2, hup⟩]
    exact .name ⟨hidle.1, hidle.2, hup⟩ h

theorem IsClean.foldl {rooted : Bool} {segs : List String} :
    ∀ {kept : List String}, IsClean rooted kept →
      IsClean rooted (segs.foldl (Path.cleanStep rooted) kept) := by
  induction segs with
  | nil => exact id
  | cons s segs ih => exact fun h => ih (h.cleanStep s)

/-- Cleaning what is clean changes nothing. -/
theorem IsClean.foldl_reverse {rooted : Bool} {kept : List String} (h : IsClean rooted kept) :
    kept.reverse.foldl (Path.cleanStep rooted) [] = kept := by
  induction h with
  | nil => rfl
  | name hname _ ih =>
      rw [List.reverse_cons, List.foldl_append, ih]
      exact cleanStep_of_isName hname
  | @up kept hrooted hkept _ ih =>
      rw [List.reverse_cons, List.foldl_append, ih]
      cases kept with
      | nil => simp [Path.cleanStep, hrooted]
      | cons s kept => simp [Path.cleanStep, hkept s (List.mem_cons_self ..)]

theorem IsClean.ne_of_mem {rooted : Bool} {kept : List String} (h : IsClean rooted kept)
    {s : String} (hs : s ∈ kept) : s ≠ "" ∧ s ≠ "." := by
  induction h with
  | nil => cases hs
  | name hname _ ih =>
      rcases List.mem_cons.1 hs with rfl | hs
      · exact ⟨hname.1, hname.2.1⟩
      · exact ih hs
  | up _ _ _ ih =>
      rcases List.mem_cons.1 hs with rfl | hs
      · decide
      · exact ih hs

theorem IsClean.isName_of_mem {kept : List String} (h : IsClean true kept) {s : String}
    (hs : s ∈ kept) : IsName s := by
  induction h with
  | nil => cases hs
  | name hname _ ih =>
      rcases List.mem_cons.1 hs with rfl | hs
      · exact hname
      · exact ih hs
  | up hrooted => cases hrooted

theorem isClean_reverse_clean (rooted : Bool) (segs : List String) :
    IsClean rooted (clean rooted segs).reverse := by
  rw [clean, List.reverse_reverse]
  exact IsClean.nil.foldl

/-- Cleaning goes on from wherever it has come to. -/
theorem clean_append (rooted : Bool) (xs ys : List String) :
    clean rooted (xs ++ ys) =
      (ys.foldl (cleanStep rooted) (clean rooted xs).reverse).reverse := by
  rw [clean, List.foldl_append, clean, List.reverse_reverse]

theorem clean_clean_append (rooted : Bool) (xs ys : List String) :
    clean rooted (clean rooted xs ++ ys) = clean rooted (xs ++ ys) := by
  have hclean : clean rooted (clean rooted xs) = clean rooted xs := by
    have h := (isClean_reverse_clean rooted xs).foldl_reverse
    rw [List.reverse_reverse] at h
    rw [clean, h, List.reverse_reverse]
  rw [clean_append, clean_append, hclean]

@[simp] theorem clean_clean (rooted : Bool) (segs : List String) :
    clean rooted (clean rooted segs) = clean rooted segs := by
  simpa using clean_clean_append rooted segs []

theorem foldl_cleanStep_of_idle {rooted : Bool} {segs kept : List String}
    (h : ∀ s ∈ segs, s = "" ∨ s = ".") : segs.foldl (cleanStep rooted) kept = kept := by
  induction segs with
  | nil => rfl
  | cons s segs ih =>
      rw [List.foldl_cons, cleanStep_of_idle (h s (List.mem_cons_self ..))]
      exact ih fun x hx => h x (List.mem_cons_of_mem _ hx)

theorem clean_append_of_idle {rooted : Bool} (xs : List String) {ys : List String}
    (h : ∀ s ∈ ys, s = "" ∨ s = ".") : clean rooted (xs ++ ys) = clean rooted xs := by
  rw [clean_append, foldl_cleanStep_of_idle h, List.reverse_reverse]

theorem clean_of_idle_append {rooted : Bool} {xs : List String} (ys : List String)
    (h : ∀ s ∈ xs, s = "" ∨ s = ".") : clean rooted (xs ++ ys) = clean rooted ys := by
  rw [clean, List.foldl_append, foldl_cleanStep_of_idle h]
  rfl

@[simp] theorem clean_cons_empty (rooted : Bool) (segs : List String) :
    clean rooted ("" :: segs) = clean rooted segs := by
  have hidle : ∀ s ∈ [""], s = "" ∨ s = "." := by simp
  exact clean_of_idle_append segs hidle

theorem foldl_cleanStep_of_isName {rooted : Bool} {segs : List String}
    (h : ∀ s ∈ segs, IsName s) (kept : List String) :
    segs.foldl (cleanStep rooted) kept = segs.reverse ++ kept := by
  induction segs generalizing kept with
  | nil => rfl
  | cons s segs ih =>
      rw [List.foldl_cons, cleanStep_of_isName (h s (List.mem_cons_self ..)),
        ih fun x hx => h x (List.mem_cons_of_mem _ hx)]
      simp

/-- Names are clean. -/
theorem clean_of_isName {rooted : Bool} {segs : List String} (h : ∀ s ∈ segs, IsName s) :
    clean rooted segs = segs := by
  rw [clean, foldl_cleanStep_of_isName h, List.append_nil, List.reverse_reverse]

theorem isName_of_mem_clean {segs : List String} {s : String} (h : s ∈ clean true segs) :
    IsName s :=
  (isClean_reverse_clean true segs).isName_of_mem (List.mem_reverse.2 h)

/-- Every segment of a clean list was there before. -/
theorem mem_of_mem_clean {rooted : Bool} {segs : List String} {s : String}
    (h : s ∈ clean rooted segs) : s ∈ segs := by
  have hstep : ∀ (kept : List String) (x : String), s ∈ cleanStep rooted kept x →
      s ∈ kept ∨ s = x := by
    intro kept x hs
    unfold cleanStep at hs
    split at hs
    · exact .inl hs
    · split at hs
      · rename_i hx
        split at hs
        · split at hs
          · cases hs
          · exact .inr ((List.mem_singleton.1 hs).trans hx.symm)
        · split at hs
          · rcases List.mem_cons.1 hs with rfl | hs
            · exact .inr hx.symm
            · exact .inl hs
          · exact .inl (List.mem_cons_of_mem _ hs)
      · rcases List.mem_cons.1 hs with rfl | hs
        · exact .inr rfl
        · exact .inl hs
  have hfold : ∀ (segs kept : List String), s ∈ segs.foldl (cleanStep rooted) kept →
      s ∈ kept ∨ s ∈ segs := by
    intro segs
    induction segs with
    | nil => exact fun kept hs => .inl hs
    | cons x segs ih =>
        intro kept hs
        rcases ih _ hs with hs | hs
        · rcases hstep kept x hs with hs | rfl
          · exact .inl hs
          · exact .inr (List.mem_cons_self ..)
        · exact .inr (List.mem_cons_of_mem _ hs)
  rcases hfold segs [] (List.mem_reverse.1 h) with h | h
  · cases h
  · exact h

/-! ### From one directory to another -/

theorem foldl_cleanStep_up (names : List String) (h : ∀ s ∈ names, IsName s)
    (kept : List String) :
    (List.replicate names.length "..").foldl (cleanStep true) (names ++ kept) = kept := by
  induction names with
  | nil => rfl
  | cons s names ih =>
      have hs := h s (List.mem_cons_self ..)
      have hstep : cleanStep true (s :: names ++ kept) ".." = names ++ kept := by
        simp [cleanStep, hs.2.2]
      rw [List.length_cons, List.replicate_succ, List.foldl_cons, hstep]
      exact ih fun x hx => h x (List.mem_cons_of_mem _ hx)

/-- Up as often as there are names, and then down other names. -/
theorem foldl_cleanStep_up_down (start : List String) {target : List String}
    (hs : ∀ s ∈ start, IsName s) (ht : ∀ s ∈ target, IsName s) (kept : List String) :
    (List.replicate start.length ".." ++ target).foldl (cleanStep true)
        (start.reverse ++ kept) = target.reverse ++ kept := by
  have hup := foldl_cleanStep_up start.reverse (by simpa using hs) kept
  rw [List.length_reverse] at hup
  rw [List.foldl_append, hup, foldl_cleanStep_of_isName ht]

theorem foldl_cleanStep_climb {start target : List String} (hs : ∀ s ∈ start, IsName s)
    (ht : ∀ s ∈ target, IsName s) (kept : List String) :
    (climb start target).foldl (cleanStep true) (start.reverse ++ kept) =
      target.reverse ++ kept := by
  -- the names that both have in common are added to what is kept
  fun_induction climb start target generalizing kept with
  | case1 as a bs ih =>
      have has : ∀ s ∈ as, IsName s := fun x hx => hs x (List.mem_cons_of_mem _ hx)
      have hbs : ∀ s ∈ bs, IsName s := fun x hx => ht x (List.mem_cons_of_mem _ hx)
      simpa using ih has hbs (a :: kept)
  | case2 a as b bs _ => exact foldl_cleanStep_up_down (a :: as) hs ht kept
  | case3 as bs _ => exact foldl_cleanStep_up_down as hs ht kept

/-- **The way from one directory to another leads there.** -/
theorem clean_append_climb {start target : List String} (hs : ∀ s ∈ start, IsName s)
    (ht : ∀ s ∈ target, IsName s) : clean true (start ++ climb start target) = target := by
  have h := foldl_cleanStep_climb hs ht []
  rw [List.append_nil, List.append_nil] at h
  rw [clean_append, clean_of_isName hs, h, List.reverse_reverse]

/-! ### Roots -/

theorem root_cases (p : String) :
    (root p = "" ∧ isAbsolute p = false) ∨ (root p = "/" ∧ isAbsolute p = true) ∨
      (root p = "//" ∧ isAbsolute p = true) := by
  unfold root isAbsolute
  split
  · rename_i h
    simp [h]
  · rename_i h
    simp [h]
  · rename_i h
    simp [h]
  · rename_i h
    refine .inl ⟨rfl, ?_⟩
    cases hp : p.toList with
    | nil => rfl
    | cons c cs =>
        have hc : c ≠ '/' := by
          rintro rfl
          exact h _ hp
        simp [hc]

theorem root_of_isAbsolute {p : String} (h : isAbsolute p = true) :
    root p = "/" ∨ root p = "//" := by
  rcases root_cases p with ⟨-, ha⟩ | ⟨hr, -⟩ | ⟨hr, -⟩
  · rw [h] at ha
    cases ha
  · exact .inl hr
  · exact .inr hr

theorem root_eq_empty_iff {p : String} : root p = "" ↔ isAbsolute p = false := by
  rcases root_cases p with ⟨hr, ha⟩ | ⟨hr, ha⟩ | ⟨hr, ha⟩ <;> simp [hr, ha]

/-- A single slash at the start is the ordinary root. -/
theorem root_slash_append {p : String} (h : isAbsolute p = false) : root ("/" ++ p) = "/" := by
  cases hp : p.toList with
  | nil => simp [root, hp]
  | cons c cs =>
      have hc : c ≠ '/' := by
        rintro rfl
        simp [isAbsolute, hp] at h
      simp [root, hp, hc]

/-! ### The two parts of a path -/

theorem slash_notMem_fileName (p : String) : '/' ∉ (fileName p).toList := by
  intro h
  simp only [fileName, String.toList_ofList, List.mem_reverse] at h
  simpa using List.mem_takeWhile_imp h

theorem ne_slash_of_mem_reverse {name : String} (h : '/' ∉ name.toList) :
    ∀ c ∈ name.toList.reverse, decide (c ≠ '/') = true := by
  intro c hc
  rw [decide_eq_true_eq]
  rintro rfl
  exact h (List.mem_reverse.1 hc)

theorem fileName_of_slash_notMem {name : String} (h : '/' ∉ name.toList) : fileName name = name := by
  have hname := ne_slash_of_mem_reverse h
  rw [fileName, List.takeWhile_eq_self_iff.2 hname, List.reverse_reverse,
    String.ofList_toList]

/-- The last name of a path is the one behind its last slash. -/
theorem fileName_append_slash (p : String) {name : String} (h : '/' ∉ name.toList) :
    fileName (p ++ "/" ++ name) = name := by
  have hname := ne_slash_of_mem_reverse h
  have htext : (p ++ "/" ++ name).toList.reverse =
      name.toList.reverse ++ '/' :: p.toList.reverse := by simp
  rw [fileName, htext, List.takeWhile_append_of_pos hname, List.takeWhile_cons_of_neg (by simp),
    List.append_nil, List.reverse_reverse, String.ofList_toList]

/-- The directory of a path, given its last name: all before that name, without slashes at the end
unless there is nothing else. -/
theorem directory_append_slash (p : String) {name : String} (h : '/' ∉ name.toList) :
    directory (p ++ "/" ++ name) =
      if p.toList.all (· = '/') then p ++ "/"
      else String.ofList (p.toList.reverse.dropWhile (· = '/')).reverse := by
  have hname := ne_slash_of_mem_reverse h
  have hbefore : (p ++ "/" ++ name).toList.reverse.dropWhile (· ≠ '/') =
      '/' :: p.toList.reverse := by
    have htext : (p ++ "/" ++ name).toList.reverse =
        name.toList.reverse ++ '/' :: p.toList.reverse := by simp
    rw [htext, List.dropWhile_append_of_pos hname]
    rfl
  have hall : ('/' :: p.toList.reverse).all (· = '/') = p.toList.all (· = '/') := by simp
  rw [directory, hbefore, hall]
  split
  · apply String.toList_inj.1
    simp
  · rfl

/-! ### The normal form -/

/-- The names that are left of a path in its normal form. -/
def cleaned (p : String) : List String := clean (isAbsolute p) (segments p)

theorem slash_notMem_of_mem_cleaned {p s : String} (h : s ∈ cleaned p) : '/' ∉ s.toList :=
  slash_notMem_of_mem_segments (mem_of_mem_clean h)

theorem ne_of_mem_cleaned {p s : String} (h : s ∈ cleaned p) : s ≠ "" ∧ s ≠ "." :=
  (isClean_reverse_clean _ _).ne_of_mem (List.mem_reverse.2 h)

theorem isName_of_mem_cleaned {p s : String} (hp : isAbsolute p = true) (h : s ∈ cleaned p) :
    IsName s := by
  rw [cleaned, hp] at h
  exact isName_of_mem_clean h

theorem isAbsolute_of_slash_notMem {p : String} (h : '/' ∉ p.toList) : isAbsolute p = false := by
  cases hp : p.toList with
  | nil => simp [isAbsolute, hp]
  | cons c cs =>
      have hc : c ≠ '/' := by
        rintro rfl
        simp [hp] at h
      simp [isAbsolute, hp, hc]

theorem isAbsolute_slash_append (s : String) : isAbsolute ("/" ++ s) = true := by
  simp [isAbsolute]

theorem isAbsolute_joinSegments {s : String} {segs : List String} (hs : s ≠ "")
    (hslash : '/' ∉ s.toList) : isAbsolute (joinSegments (s :: segs)) = false := by
  cases hl : s.toList with
  | nil => exact absurd (String.toList_inj.1 (hl.trans String.toList_empty.symm)) hs
  | cons c cs =>
      have hc : c ≠ '/' := by
        rintro rfl
        simp [hl] at hslash
      cases segs with
      | nil => simp [isAbsolute, hl, hc]
      | cons s' segs =>
          rw [joinSegments_cons (by simp)]
          simp [isAbsolute, hl, hc]

theorem isAbsolute_joinSegments_of_forall {names : List String}
    (hnames : ∀ s ∈ names, s ≠ "" ∧ '/' ∉ s.toList) : isAbsolute (joinSegments names) = false := by
  cases names with
  | nil => rfl
  | cons s names =>
      have hs := hnames s (List.mem_cons_self ..)
      exact isAbsolute_joinSegments hs.1 hs.2

/-- Two slashes are a root of their own in front of a path that does not start at the root. -/
theorem root_slash_slash_append {p : String} (h : isAbsolute p = false) :
    root ("//" ++ p) = "//" := by
  cases hp : p.toList with
  | nil => simp [root, hp]
  | cons c cs =>
      have hc : c ≠ '/' := by
        rintro rfl
        simp [isAbsolute, hp] at h
      simp [root, hp, hc]

/-! ### Names behind a root -/

/-- The path that goes from a root through names; it is `.` where there is neither. -/
def spelled (root : String) (names : List String) : String :=
  let q := root ++ joinSegments names
  if q = "" then "." else q

theorem spelled_of_isAbsolute {p : String} (h : isAbsolute p = true) (names : List String) :
    spelled (root p) names = root p ++ joinSegments names := by
  unfold spelled
  dsimp only
  rw [if_neg]
  rcases root_of_isAbsolute h with hr | hr <;> simp [hr]

section

variable {p : String} {names : List String}

theorem spelled_of_not_isAbsolute (h : isAbsolute p = false)
    (hnames : ∀ s ∈ names, s ≠ "" ∧ '/' ∉ s.toList) :
    spelled (root p) names = if names = [] then "." else joinSegments names := by
  unfold spelled
  dsimp only
  rw [root_eq_empty_iff.2 h, String.empty_append]
  cases names with
  | nil => rfl
  | cons s segs =>
      have hs : s ≠ "" := (hnames s (List.mem_cons_self ..)).1
      rw [if_neg, if_neg (by simp)]
      cases segs with
      | nil => simpa using hs
      | cons s' segs =>
          rw [joinSegments_cons (by simp)]
          simp

theorem isAbsolute_spelled (hnames : ∀ s ∈ names, s ≠ "" ∧ '/' ∉ s.toList) :
    isAbsolute (spelled (root p) names) = isAbsolute p := by
  cases h : isAbsolute p with
  | true =>
      rw [spelled_of_isAbsolute h]
      rcases root_of_isAbsolute h with hr | hr
      · rw [hr]
        exact isAbsolute_slash_append _
      · rw [hr]
        exact isAbsolute_slash_append ("/" ++ joinSegments names)
  | false =>
      rw [spelled_of_not_isAbsolute h hnames]
      split
      · rfl
      · exact isAbsolute_joinSegments_of_forall hnames

theorem root_spelled (hnames : ∀ s ∈ names, s ≠ "" ∧ '/' ∉ s.toList) :
    root (spelled (root p) names) = root p := by
  have hrest := isAbsolute_joinSegments_of_forall hnames
  cases h : isAbsolute p with
  | true =>
      rw [spelled_of_isAbsolute h]
      rcases root_of_isAbsolute h with hr | hr
      · rw [hr, root_slash_append hrest]
      · rw [hr, root_slash_slash_append hrest]
  | false => rw [root_eq_empty_iff.2 ((isAbsolute_spelled hnames).trans h), root_eq_empty_iff.2 h]

/-- The segments of a path that is spelled out: its names, behind segments that lead nowhere. -/
theorem segments_spelled (hnames : ∀ s ∈ names, s ≠ "" ∧ '/' ∉ s.toList) :
    ∃ lead, segments (spelled (root p) names) = lead ++ names ∧ ∀ s ∈ lead, s = "" ∨ s = "." := by
  have hjoin : names ≠ [] → segments (joinSegments names) = names :=
    segments_joinSegments fun s hs => (hnames s hs).2
  cases h : isAbsolute p with
  | true =>
      rw [spelled_of_isAbsolute h]
      rcases root_of_isAbsolute h with hr | hr
      · rw [hr, segments_slash_append]
        by_cases hc : names = []
        · exact ⟨["", ""], by simp [hc], by simp⟩
        · exact ⟨[""], by rw [hjoin hc]; rfl, by simp⟩
      · have hroot : "//" ++ joinSegments names = "/" ++ ("/" ++ joinSegments names) := by
          rw [← String.append_assoc]
          rfl
        rw [hr, hroot, segments_slash_append, segments_slash_append]
        by_cases hc : names = []
        · exact ⟨["", "", ""], by simp [hc], by simp⟩
        · exact ⟨["", ""], by rw [hjoin hc]; rfl, by simp⟩
  | false =>
      rw [spelled_of_not_isAbsolute h hnames]
      by_cases hc : names = []
      · exact ⟨["."], by rw [if_pos hc, hc]; rfl, by simp⟩
      · exact ⟨[], by rw [if_neg hc, hjoin hc]; rfl, by simp⟩

end

/-! ### The normal form, spelled out -/

theorem normalize_eq (p : String) : normalize p = spelled (root p) (cleaned p) := rfl

theorem ne_and_slash_notMem_of_mem_cleaned (p : String) :
    ∀ s ∈ cleaned p, s ≠ "" ∧ '/' ∉ s.toList :=
  fun _ hs => ⟨(ne_of_mem_cleaned hs).1, slash_notMem_of_mem_cleaned hs⟩

theorem normalize_of_isAbsolute {p : String} (h : isAbsolute p = true) :
    normalize p = root p ++ joinSegments (cleaned p) :=
  spelled_of_isAbsolute h _

/-- A normal form starts at the root exactly when its path does. -/
@[simp] theorem isAbsolute_normalize (p : String) : isAbsolute (normalize p) = isAbsolute p :=
  isAbsolute_spelled (ne_and_slash_notMem_of_mem_cleaned p)

/-- **The segments of a normal form**: the names that are left of the path, behind segments that
lead nowhere. -/
theorem segments_normalize (p : String) :
    ∃ lead, segments (normalize p) = lead ++ cleaned p ∧ ∀ s ∈ lead, s = "" ∨ s = "." :=
  segments_spelled (ne_and_slash_notMem_of_mem_cleaned p)

@[simp] theorem cleaned_normalize (p : String) : cleaned (normalize p) = cleaned p := by
  obtain ⟨lead, hsegs, hlead⟩ := segments_normalize p
  rw [cleaned, isAbsolute_normalize, hsegs, clean_of_idle_append _ hlead]
  exact clean_clean _ _

/-- A normal form starts at the root that its path starts at. -/
@[simp] theorem root_normalize (p : String) : root (normalize p) = root p :=
  root_spelled (ne_and_slash_notMem_of_mem_cleaned p)

/-- **A normal form is its own normal form.** -/
@[simp] theorem normalize_normalize (p : String) : normalize (normalize p) = normalize p := by
  rw [normalize_eq (normalize p), root_normalize, cleaned_normalize, ← normalize_eq]

/-! ### Tidy paths -/

/-- The segments of a path that lead anywhere. -/
def steps (p : String) : List String := (segments p).filter fun s => s ≠ "" ∧ s ≠ "."

theorem tidy_eq (p : String) : tidy p = spelled (root p) (steps p) := rfl

theorem ne_and_slash_notMem_of_mem_steps (p : String) :
    ∀ s ∈ steps p, s ≠ "" ∧ '/' ∉ s.toList := by
  intro s hs
  obtain ⟨hsegment, hstep⟩ := List.mem_filter.1 hs
  simp only [ne_eq, decide_eq_true_eq] at hstep
  exact ⟨hstep.1, slash_notMem_of_mem_segments hsegment⟩

@[simp] theorem isAbsolute_tidy (p : String) : isAbsolute (tidy p) = isAbsolute p :=
  isAbsolute_spelled (ne_and_slash_notMem_of_mem_steps p)

/-- The segments of a tidy path: those that lead anywhere, behind ones that do not. -/
theorem segments_tidy (p : String) :
    ∃ lead, segments (tidy p) = lead ++ steps p ∧ ∀ s ∈ lead, s = "" ∨ s = "." :=
  segments_spelled (ne_and_slash_notMem_of_mem_steps p)

/-- A normal form is tidy. -/
@[simp] theorem tidy_normalize (p : String) : tidy (normalize p) = normalize p := by
  obtain ⟨lead, hsegs, hlead⟩ := segments_normalize p
  have hlead' : lead.filter (fun s => s ≠ "" ∧ s ≠ ".") = [] :=
    List.filter_eq_nil_iff.2 fun s hs => by rcases hlead s hs with rfl | rfl <;> decide
  have hcleaned : (cleaned p).filter (fun s => s ≠ "" ∧ s ≠ ".") = cleaned p :=
    List.filter_eq_self.2 fun s hs => by simpa using ne_of_mem_cleaned hs
  rw [tidy_eq, steps, hsegs, List.filter_append, hlead', hcleaned, root_normalize,
    List.nil_append, ← normalize_eq]

/-! ### Absolute paths -/

theorem isAbsolute_append {a : String} (h : isAbsolute a = true) (b : String) :
    isAbsolute (a ++ b) = true := by
  unfold isAbsolute at h ⊢
  cases ha : a.toList with
  | nil => simp [ha] at h
  | cons c cs => simpa [ha] using h

/-- A path seen from an absolute one is absolute. -/
theorem isAbsolute_join {a : String} (h : isAbsolute a = true) (b : String) :
    isAbsolute (join a b) = true := by
  unfold join
  split
  · assumption
  · split
    · exact isAbsolute_append h b
    · exact isAbsolute_append (isAbsolute_append h "/") b

/-- The normal form of a path seen from a directory is the same from any directory. -/
theorem absolute_absolute {cwd : String} (h : isAbsolute cwd = true) (other p : String) :
    absolute other (absolute cwd p) = absolute cwd p := by
  have habsolute : isAbsolute (absolute cwd p) = true := by
    rw [absolute, isAbsolute_normalize]
    split
    · assumption
    · exact isAbsolute_join h p
  rw [absolute, if_pos habsolute, absolute, normalize_normalize]

/-! ### The length of a normal form -/

/-- The length of segments in bytes, each with a slash behind it. -/
def weight (segs : List String) : Nat := (segs.map fun s => s.utf8ByteSize + 1).sum

theorem utf8ByteSize_joinSegments {segs : List String} (h : segs ≠ []) :
    (joinSegments segs).utf8ByteSize + 1 = weight segs := by
  induction segs with
  | nil => exact absurd rfl h
  | cons s segs ih =>
      cases segs with
      | nil => simp [weight]
      | cons s' segs =>
          have hrest := ih (by simp)
          have hslash : "/".utf8ByteSize = 1 := by decide
          rw [joinSegments_cons (by simp), String.utf8ByteSize_append, String.utf8ByteSize_append,
            hslash]
          simp only [weight, List.map_cons, List.sum_cons] at hrest ⊢
          omega

theorem weight_cleanStep_le (rooted : Bool) (kept : List String) (s : String) :
    weight (cleanStep rooted kept s) ≤ weight kept + (s.utf8ByteSize + 1) := by
  unfold cleanStep
  split
  · omega
  · split
    · rename_i hup
      subst hup
      split
      · split <;> simp [weight]
      · split
        · simp [weight]
          omega
        · simp [weight]
          omega
    · simp [weight]
      omega

theorem weight_clean_le (rooted : Bool) (segs : List String) :
    weight (clean rooted segs) ≤ weight segs := by
  have hfold : ∀ (segs kept : List String),
      weight (segs.foldl (cleanStep rooted) kept) ≤ weight kept + weight segs := by
    intro segs
    induction segs with
    | nil => intro kept; simp [weight]
    | cons s segs ih =>
        intro kept
        have hstep := weight_cleanStep_le rooted kept s
        have hrest := ih (cleanStep rooted kept s)
        simp only [weight, List.map_cons, List.sum_cons, List.foldl_cons] at hstep hrest ⊢
        omega
  have hreverse : weight (clean rooted segs) = weight (segs.foldl (cleanStep rooted) []) := by
    simp [weight, clean]
  rw [hreverse]
  simpa [weight] using hfold segs []

theorem one_le_weight {segs : List String} (h : segs ≠ []) : 1 ≤ weight segs := by
  cases segs with
  | nil => exact absurd rfl h
  | cons s segs => simp [weight]; omega

/-- A path begins with its root, and each slash of the root makes an empty segment. -/
theorem exists_segments_eq (p : String) :
    ∃ rest, segments p = List.replicate (root p).utf8ByteSize "" ++ segments rest := by
  have hofList : ∀ cs : List Char, p.toList = cs → segments p = (pieces cs).map String.ofList := by
    rintro cs rfl
    rfl
  have hone : "/".utf8ByteSize = 1 := by decide
  have htwo : "//".utf8ByteSize = 2 := by decide
  unfold root
  split
  · rename_i cs h
    exact ⟨String.ofList ('/' :: '/' :: cs), by rw [hofList _ h]; simp [segments, pieces, hone]⟩
  · rename_i cs _ h
    exact ⟨String.ofList cs, by rw [hofList _ h]; simp [segments, pieces, htwo]⟩
  · rename_i cs _ _ h
    exact ⟨String.ofList cs, by rw [hofList _ h]; simp [segments, pieces, hone]⟩
  · exact ⟨p, by simp⟩

/-- A path is no shorter than one that is spelled out from its root, if its segments outweigh the
names. -/
theorem utf8ByteSize_spelled_le {p : String} {names : List String} (hp : p ≠ "")
    (hnames : ∀ s ∈ names, s ≠ "" ∧ '/' ∉ s.toList)
    (hweight : ∀ rest, segments p = List.replicate (root p).utf8ByteSize "" ++ segments rest →
      weight names ≤ weight (segments rest)) :
    (spelled (root p) names).utf8ByteSize ≤ p.utf8ByteSize := by
  obtain ⟨rest, hrest⟩ := exists_segments_eq p
  have hsize := utf8ByteSize_joinSegments (segments_ne_nil p)
  have hsegments : weight (segments p) = (root p).utf8ByteSize + weight (segments rest) := by
    simp [hrest, weight]
  have hjoin : (joinSegments names).utf8ByteSize + 1 ≤ weight (segments rest) := by
    by_cases hc : names = []
    · simpa [hc] using one_le_weight (segments_ne_nil rest)
    · rw [utf8ByteSize_joinSegments hc]
      exact hweight rest hrest
  rw [joinSegments_segments] at hsize
  cases ha : isAbsolute p with
  | true =>
      rw [spelled_of_isAbsolute ha, String.utf8ByteSize_append]
      omega
  | false =>
      have hpos : p.utf8ByteSize ≠ 0 := fun h => hp (String.utf8ByteSize_eq_zero_iff.1 h)
      have hdot : ".".utf8ByteSize = 1 := by decide
      rw [spelled_of_not_isAbsolute ha hnames]
      split <;> omega

/-- **A normal form is no longer than its path**, unless that is empty. -/
theorem utf8ByteSize_normalize_le {p : String} (hp : p ≠ "") :
    (normalize p).utf8ByteSize ≤ p.utf8ByteSize := by
  rw [normalize_eq]
  refine utf8ByteSize_spelled_le hp (ne_and_slash_notMem_of_mem_cleaned p) fun rest hrest => ?_
  rw [cleaned, hrest, clean_of_idle_append _ fun s hs => .inl (List.eq_of_mem_replicate hs)]
  exact weight_clean_le _ _

theorem weight_filter_le (keep : String → Bool) (segs : List String) :
    weight (segs.filter keep) ≤ weight segs := by
  induction segs with
  | nil => rfl
  | cons s segs ih =>
      rw [List.filter_cons]
      split
      · simp only [weight, List.map_cons, List.sum_cons] at ih ⊢
        omega
      · simp only [weight, List.map_cons, List.sum_cons] at ih ⊢
        omega

/-- A tidy path is no longer than the path, unless that is empty. -/
theorem utf8ByteSize_tidy_le {p : String} (hp : p ≠ "") :
    (tidy p).utf8ByteSize ≤ p.utf8ByteSize := by
  rw [tidy_eq]
  refine utf8ByteSize_spelled_le hp (ne_and_slash_notMem_of_mem_steps p) fun rest hrest => ?_
  have hroot : (List.replicate (root p).utf8ByteSize "").filter (fun s => s ≠ "" ∧ s ≠ ".") = [] :=
    List.filter_eq_nil_iff.2 fun s hs => by rw [List.eq_of_mem_replicate hs]; decide
  rw [steps, hrest, List.filter_append, hroot, List.nil_append]
  exact weight_filter_le _ _

end Citations.Path

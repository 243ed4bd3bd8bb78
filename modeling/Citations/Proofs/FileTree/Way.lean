/-
**The way from one place to another.**

The relative path from a directory to a place goes up as often as needed and then down.  Read from
the directory it leads to the place, since each `..` cancels a name of the directory; and as a path
of a document it leads to the file there, if no name is taken for an escape.

Main definitions:

* `Citations.Path.way` — the path that leads from one place to another.

Main results:

* `Citations.Path.relative_eq_way` — a relative path is the way between two places;
* `Citations.FileTree.clean_append_segments_way` — **whoever follows the way to a place arrives
  there**;
* `Citations.Resolution.literal?_way` — a document that names a file by the way to it names that
  file.
-/

import Citations.Proofs.FileTree.Plain
import Citations.Proofs.Text.Percent
import Citations.Resolution

set_option relaxedAutoImplicit false
set_option autoImplicit false

namespace Citations

open Text

/-! ### The way from one place to another -/

namespace Path

variable {start target : List String}

/-- The path that leads from one place to another. -/
def way (start target : List String) : String :=
  match climb start target with
  | [] => "."
  | segs => joinSegments segs

theorem relative_eq_way (cwd target start : String) :
    relative cwd target start = way (names (absolute cwd start)) (names (absolute cwd target)) := by
  unfold relative way
  generalize climb (names (absolute cwd start)) (names (absolute cwd target)) = segs
  cases segs with
  | nil => rfl
  | cons s segs => rfl

theorem mem_climb {s : String} (h : s ∈ climb start target) : s = ".." ∨ s ∈ target := by
  fun_induction climb start target with
  | case1 as b bs ih => exact (ih h).imp_right (List.mem_cons_of_mem _)
  | case2 a as b bs _ =>
      rcases List.mem_append.1 h with h | h
      · exact .inl (List.eq_of_mem_replicate h)
      · exact .inr h
  | case3 as bs _ =>
      rcases List.mem_append.1 h with h | h
      · exact .inl (List.eq_of_mem_replicate h)
      · exact .inr h

theorem mem_toList_joinSegments {segs : List String} {c : Char}
    (h : c ∈ (joinSegments segs).toList) : c = '/' ∨ ∃ s ∈ segs, c ∈ s.toList := by
  induction segs with
  | nil => simp at h
  | cons s segs ih =>
      by_cases hsegs : segs = []
      · subst hsegs
        rw [joinSegments_singleton] at h
        exact .inr ⟨s, List.mem_cons_self .., h⟩
      · rw [joinSegments_cons hsegs, String.toList_append, String.toList_append] at h
        rcases List.mem_append.1 h with h | h
        · rcases List.mem_append.1 h with h | h
          · exact .inr ⟨s, List.mem_cons_self .., h⟩
          · exact .inl (by simpa using h)
        · exact (ih h).imp_right fun ⟨s', hs', hc⟩ => ⟨s', List.mem_cons_of_mem _ hs', hc⟩

/-- What is not in the names of a place is not in the way there. -/
theorem notMem_way {c : Char} (hslash : c ≠ '/') (hdot : c ≠ '.')
    (h : ∀ s ∈ target, c ∉ s.toList) : c ∉ (way start target).toList := by
  intro hc
  unfold way at hc
  split at hc
  · simp [hdot] at hc
  · rcases mem_toList_joinSegments hc with rfl | ⟨s, hs, hc⟩
    · exact hslash rfl
    · rcases mem_climb hs with rfl | hs
      · simp [hdot] at hc
      · exact h s hs hc

end Path

namespace FileTree

open Citations.Path (way climb clean segments joinSegments)

variable {t : FileTree} {p q : Place} {scope : String}

theorem slash_notMem_of_mem_climb (hq : IsPlace q) {s : String} (h : s ∈ climb p q) :
    '/' ∉ s.toList := by
  rcases Path.mem_climb h with rfl | h
  · simp
  · exact (hq s h).2

theorem isAbsolute_way (hq : IsPlace q) : Path.isAbsolute (way p q) = false := by
  unfold way
  split
  · rfl
  · rename_i hne
    cases hclimb : climb p q with
    | nil => exact absurd hclimb hne
    | cons s segs =>
        have hs : s ∈ climb p q := by rw [hclimb]; exact List.mem_cons_self ..
        refine Path.isAbsolute_joinSegments ?_ (slash_notMem_of_mem_climb hq hs)
        rcases Path.mem_climb hs with rfl | h
        · simp
        · exact (hq s h).1.1

/-- Whoever follows the way from one place to another arrives there. -/
theorem clean_append_segments_way (hp : IsPlace p) (hq : IsPlace q) :
    clean true (p ++ segments (way p q)) = q := by
  have hclimb := Path.clean_append_climb (fun s hs => (hp s hs).1) (fun s hs => (hq s hs).1)
  unfold way
  split
  · rename_i hnil
    have hidle : ∀ s ∈ segments ".", s = "" ∨ s = "." := by decide
    rw [Path.clean_append_of_idle p hidle, ← hclimb, hnil, List.append_nil]
  · rename_i hne
    rw [Path.segments_joinSegments (fun s hs => slash_notMem_of_mem_climb hq hs) hne, hclimb]

end FileTree

namespace Resolution

variable {t : FileTree} {p q : Place}

/-- **The way to a file leads there**, if it holds no percent sign. -/
theorem literal?_way (hp : FileTree.IsPlace p) (hq : FileTree.IsPlace q)
    (hpercent : ∀ name ∈ q, '%' ∉ name.toList) (hfile : t.isFile (FileTree.pathTo q) = true) :
    literal? t (Path.way p.dropLast q) (FileTree.pathTo p) = some (FileTree.pathTo q) := by
  have hdir := hp.dropLast
  have hdecode : decode (Path.way p.dropLast q) = Path.way p.dropLast q :=
    decode_eq_self (Path.notMem_way (by decide) (by decide) hpercent)
  have hbesides : besides (FileTree.pathTo p) (Path.way p.dropLast q) = FileTree.pathTo q := by
    have hrelative := FileTree.isAbsolute_way (p := p.dropLast) hq
    rw [besides, FileTree.directory_pathTo hp, FileTree.join_pathTo hdir hrelative,
      FileTree.normalize_pathTo_concat hdir hrelative,
      FileTree.clean_append_segments_way hdir hq]
  have hreadings : readings (Path.way p.dropLast q) = [Path.way p.dropLast q] := by
    rw [readings, hdecode, List.eraseDups_cons]
    simp
  rw [literal?, hreadings, List.map_singleton, hbesides, List.find?_singleton, hfile]
  rfl

end Resolution

end Citations

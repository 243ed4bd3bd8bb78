/-
**The two paths of a link.**

A link keeps the path of its file in two forms: in normal form, and as the way that leads to it from
the document.  The way goes up from the directory of the document as often as needed and then down,
and whoever resolves it in the document comes back to the normal form; so both forms denote one
file.

That holds of places behind the ordinary root.  A way says nothing about the root that it starts
from, so it cannot lead from the ordinary root to the one of two slashes, or back.

Main results:

* `Citations.Path.resolve_relativeToDocument` — **the way to a file leads back to it**;
* `Citations.Citation.path_ne_empty` — the path of a citation is not empty;
* `Citations.Link.targetPath_denotes` — **both paths of a link denote the same file**.
-/

import Citations.Proofs.Link.Overlap
import Citations.Proofs.Path.FromDirectory

set_option relaxedAutoImplicit false
set_option autoImplicit false

namespace Citations

open Text

/-! ### There and back -/

namespace Path

variable {cwd raw source target : String}

/-- A path behind the ordinary root leads to the place that its names make up. -/
theorem normalize_eq_pathTo (h : isAbsolute target = true) (hroot : root target ≠ "//") :
    normalize target = FileTree.pathTo (cleaned target) := by
  rw [normalize_of_isAbsolute h, (root_of_isAbsolute h).resolve_right hroot]
  rfl

/-- The names of a path behind the ordinary root, seen from anywhere. -/
theorem names_absolute (h : isAbsolute target = true) (hroot : root target ≠ "//") (cwd : String) :
    names (absolute cwd target) = cleaned target := by
  rw [absolute_of_isAbsolute cwd h, normalize_eq_pathTo h hroot,
    FileTree.names_pathTo (FileTree.isPlace_cleaned h)]

/-- The root that the target of a path in a document is behind: that of the path if it has one, else
that of the document. -/
theorem root_resolve (hsource : isAbsolute source = true) (raw : String) :
    root (resolve raw source) = if isAbsolute raw then root raw else root source := by
  have hdirectory : isAbsolute (directory source) = true :=
    (isAbsolute_directory source).trans hsource
  unfold resolve
  cases hraw : isAbsolute raw with
  | true => rw [if_pos rfl, if_pos rfl, root_normalize]
  | false =>
      rw [if_neg (by simp), if_neg (by simp), root_normalize, root_join hdirectory hraw,
        root_directory hsource]

theorem normalize_resolve (raw source : String) :
    normalize (resolve raw source) = resolve raw source := by
  unfold resolve
  split
  · exact normalize_normalize _
  · exact normalize_normalize _

/-- **The way to a file leads back to it.** -/
theorem resolve_relativeToDocument (hsource : isAbsolute source = true)
    (hsourceRoot : root source ≠ "//") (htarget : isAbsolute target = true)
    (htargetRoot : root target ≠ "//") (cwd : String) :
    resolve (relativeToDocument cwd target source) source = normalize target := by
  have hdirectory : isAbsolute (directory source) = true :=
    (isAbsolute_directory source).trans hsource
  have hroot : root (directory source) ≠ "//" := by rwa [root_directory hsource]
  have hstart := FileTree.isPlace_cleaned hdirectory
  have hgoal := FileTree.isPlace_cleaned htarget
  have hway : relativeToDocument cwd target source =
      way (cleaned (directory source)) (cleaned target) := by
    rw [relativeToDocument, relative_eq_way, names_absolute hdirectory hroot,
      names_absolute htarget htargetRoot]
  have hrelative : isAbsolute (way (cleaned (directory source)) (cleaned target)) = false :=
    FileTree.isAbsolute_way hgoal
  have hjoined : isAbsolute (join (directory source)
      (way (cleaned (directory source)) (cleaned target))) = true := isAbsolute_join hdirectory _
  have hjoinedRoot : root (join (directory source)
      (way (cleaned (directory source)) (cleaned target))) ≠ "//" := by
    rwa [root_join hdirectory hrelative]
  have hnames : cleaned (join (directory source)
      (way (cleaned (directory source)) (cleaned target))) = cleaned target :=
    calc cleaned (join (directory source) (way (cleaned (directory source)) (cleaned target)))
        = (keptBehind (keptBehind [] (directory source))
            (way (cleaned (directory source)) (cleaned target))).reverse := by
          rw [← reverse_keptBehind hjoined, keptBehind_join hrelative]
      _ = clean true (cleaned (directory source) ++
            segments (way (cleaned (directory source)) (cleaned target))) := by
          rw [clean_append, clean_of_isName fun s hs => (hstart s hs).1,
            ← reverse_keptBehind hdirectory, List.reverse_reverse, keptBehind]
      _ = cleaned target := FileTree.clean_append_segments_way hstart hgoal
  rw [hway, resolve, if_neg (by simp [hrelative]), normalize_eq_pathTo hjoined hjoinedRoot, hnames,
    normalize_eq_pathTo htarget htargetRoot]

end Path

/-! ### Paths of citations -/

namespace Citation

/-- **The path of a citation is not empty.** -/
theorem path_ne_empty {chars : List Char} {c : Citation} {path : String} (h : c ∈ citations chars)
    (hpath : c.path = some path) : path ≠ "" := by
  obtain ⟨r, hr, more, hc⟩ := exists_of_mem_collect ((List.mergeSort_perm _ _).mem_iff.1 h)
  obtain ⟨front, rest, n, b, -, hread, rfl⟩ := exists_read_of_mem_ofKind hc
  simp only [readers, List.mem_cons, List.not_mem_nil, or_false] at hr
  rcases hr with rfl | rfl | rfl | rfl
  · obtain ⟨-, -, -, -, -, -, -, -, -, hne⟩ := markdown_eq_some hread
    exact hne path hpath
  · obtain ⟨-, -, -, -, -, -, hne⟩ := @wiki_eq_some front.getLast? _ _ _ hread
    exact hne path hpath
  · obtain ⟨-, -, -, -, -, -, hne⟩ := @cite_eq_some front.getLast? _ _ _ hread
    exact hne path hpath
  · obtain ⟨-, -, -, -, -, -, hnone, -⟩ := caret_eq_some hread
    cases hnone.symm.trans hpath

end Citation

/-! ### The two paths of a link -/

namespace Link

variable {source : String}

@[simp] theorem raw_ofRaw (cwd source raw : String) : (TargetPath.ofRaw cwd source raw).raw = raw :=
  rfl

/-- A file that a path written in a document names has two paths, which denote it. -/
theorem denotes_ofRaw (hsource : Path.isAbsolute source = true) (hroot : Path.root source ≠ "//")
    (cwd : String) {raw : String} (hraw : Path.root (decode raw) ≠ "//") :
    let p := TargetPath.ofRaw cwd source raw
    Path.isAbsolute p.absolute = true ∧ Path.normalize p.absolute = p.absolute ∧
      Path.resolve p.relative source = p.absolute := by
  have habsolute : Path.isAbsolute (Path.resolve (decode raw) source) = true := by
    rw [Path.isAbsolute_resolve, hsource, Bool.or_true]
  have hresolved : Path.root (Path.resolve (decode raw) source) ≠ "//" := by
    rw [Path.root_resolve hsource]
    split
    · exact hraw
    · exact hroot
  have hnormal := Path.normalize_resolve (decode raw) source
  simp only [TargetPath.ofRaw]
  refine ⟨habsolute, hnormal, ?_⟩
  rw [Path.resolve_relativeToDocument hsource hroot habsolute hresolved cwd, hnormal]

/-- **Both paths of a link denote the same file.**  The way from a document to a file, resolved in
the document, is the normal form of the path of the file.  So a link of the document that names a
file keeps an absolute path in normal form and a way that leads there, and a link that stays in the
document keeps neither. -/
theorem targetPath_denotes (hsource : Path.isAbsolute source = true)
    (hroot : Path.root source ≠ "//") :
    (∀ cwd target, Path.isAbsolute target = true → Path.root target ≠ "//" →
      ∃ way, Path.relativeToDocument? cwd target source = .ok way ∧
        Path.resolve way source = Path.normalize target) ∧
    ∀ cwd number line, ∀ l ∈ ofLine ⟨cwd, source, number⟩ line,
      (l.scope = .sameDocument ↔ l.target.path = none) ∧
      ∀ p, l.target.path = some p → p.raw ≠ "" ∧
        (Path.root (decode p.raw) ≠ "//" →
          Path.isAbsolute p.absolute = true ∧ Path.normalize p.absolute = p.absolute ∧
            Path.resolve p.relative source = p.absolute) := by
  refine ⟨fun cwd target htarget htargetRoot => ?_, fun cwd number line l hl =>
    ⟨l.scope_eq_sameDocument_iff, fun p hp => ?_⟩⟩
  · have hne : target ≠ "" := by
      rintro rfl
      cases htarget
    exact ⟨_, if_neg hne,
      Path.resolve_relativeToDocument hsource hroot htarget htargetRoot cwd⟩
  · obtain ⟨c, hc, markerStop, rfl⟩ := exists_of_mem_ofCitations hl
    obtain ⟨raw, hraw, rfl⟩ := Option.map_eq_some_iff.1 hp
    rw [raw_ofRaw]
    exact ⟨Citation.path_ne_empty hc hraw, denotes_ofRaw hsource hroot cwd⟩

/-- A document that is seen from elsewhere in the tree, and one of its links: both ways go up and
down again. -/
theorem targetPath_denotes_sibling :
    Path.isAbsolute "/docs/./s.md" = true ∧ Path.root "/docs/./s.md" ≠ "//" ∧
      (∃ way, Path.relativeToDocument? "/" "/docs/x/../../t.md" "/docs/./s.md" = .ok way ∧
        Path.resolve way "/docs/./s.md" = Path.normalize "/docs/x/../../t.md") ∧
      ∃ l ∈ ofLine ⟨"/", "/docs/./s.md", 1⟩ "[x](../a//b%20c.md#d)", ∃ p,
        l.scope ≠ .sameDocument ∧ l.target.path = some p ∧ p.raw = "../a//b%20c.md" ∧
          Path.resolve p.relative "/docs/./s.md" = "/a/b c.md" := by
  have hcitations : citations "[x](../a//b%20c.md#d)".toList =
      [⟨.markdown, some "../a//b%20c.md", some "d", some "x", 0, 21⟩] := by
    have hfound : Citation.collect "[x](../a//b%20c.md#d)".toList Citation.readers
        (codeSpans "[x](../a//b%20c.md#d)".toList) =
          [⟨.markdown, some "../a//b%20c.md", some "d", some "x", 0, 21⟩] := rfl
    rw [citations, hfound, List.mergeSort_singleton]
  have hsource : Path.isAbsolute "/docs/./s.md" = true := by decide +kernel
  have hroot : Path.root "/docs/./s.md" ≠ "//" := by decide +kernel
  obtain ⟨hway, hlinks⟩ := targetPath_denotes hsource hroot
  refine ⟨hsource, hroot, hway "/" "/docs/x/../../t.md" (by decide +kernel) (by decide +kernel), ?_⟩
  have hline : ofLine ⟨"/", "/docs/./s.md", 1⟩ "[x](../a//b%20c.md#d)" =
      [ofCitation ⟨"/", "/docs/./s.md", 1⟩ "[x](../a//b%20c.md#d)".toList
        ⟨.markdown, some "../a//b%20c.md", some "d", some "x", 0, 21⟩ 21] := by
    rw [ofLine, hcitations]
    rfl
  have hmem := hline ▸ List.mem_singleton.2 rfl
  obtain ⟨hscope, hpaths⟩ := hlinks "/" 1 _ _ hmem
  obtain ⟨-, hdenotes⟩ := hpaths (.ofRaw "/" "/docs/./s.md" "../a//b%20c.md") rfl
  obtain ⟨-, -, hback⟩ := hdenotes (by decide +kernel)
  have hother : ¬ (ofCitation ⟨"/", "/docs/./s.md", 1⟩ "[x](../a//b%20c.md#d)".toList
      ⟨.markdown, some "../a//b%20c.md", some "d", some "x", 0, 21⟩ 21).scope = .sameDocument := by
    rw [hscope]
    exact Option.some_ne_none _
  exact ⟨_, hmem, _, hother, rfl, rfl, hback.trans (by decide +kernel)⟩

end Link

end Citations

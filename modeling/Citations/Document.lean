/-
**Documents.**

A document is parsed once, into its lines, its blocks, its headings, its anchors and its links.  For
the block structure the frontmatter is blanked, so that lines keep their numbers; neither the lines
of the frontmatter nor those of code hold links or block anchors.

Main definitions:

* `Citations.Document` — what is known of a document;
* `Citations.Document.body` — the source of the block structure;
* `Citations.Document.isExcluded` — whether a line holds neither links nor block anchors;
* `Citations.Document.parse` — reads a document;
* `Citations.Document.IsParsed` — a document that came of parsing a text.

Main results:

* `Citations.Document.flatten_lines_parse` — the lines of a document make up its content;
* `Citations.Document.source_of_mem_links` — every link says which document holds it.
-/

import Citations.Anchor
import Citations.Frontmatter
import Citations.Link.Scan
import Citations.Markdown.Structure
import Citations.Text.Lines

set_option relaxedAutoImplicit false
set_option autoImplicit false

namespace Citations

open Text

/-- What is known of a document. -/
structure Document where
  path : String
  content : String
  /-- The lines of the content, each with its ending. -/
  lines : List (List Char)
  blocks : List Markdown.Block
  headings : List Heading
  anchors : List Anchor
  links : List Link
  deriving DecidableEq

namespace Document

/-- The source of the block structure: the lines with those of the frontmatter blanked. -/
def body (lines : List (List Char)) (blanked : Nat) : List Char :=
  List.replicate blanked '\n' ++ (lines.drop blanked).flatten

/-- The headings among the blocks of a document, in order, their texts without white space at either
end. -/
def headingsOf (blocks : List Markdown.Block) : List Heading :=
  blocks.filterMap fun b =>
    match b.kind with
    | .heading level text => some ⟨level, String.ofList (trim text.toList), b.first + 1⟩
    | _ => none

/-- Whether a line holds neither links nor block anchors: it belongs to the frontmatter or to
code. -/
def isExcluded (blanked : Nat) (blocks : List Markdown.Block) (line : Nat) : Bool :=
  line < blanked || Markdown.isCodeLine blocks line

/-- What `read` finds on the lines that are not excluded; it is given the number of the line,
counted from one, and the line without its ending. -/
def scanLines {α : Type} (excluded : Nat → Bool) (read : Nat → List Char → List α) :
    (index : Nat) → List (List Char) → List α
  | _, [] => []
  | index, l :: ls =>
      (if excluded index then [] else read (index + 1) (chomp l)) ++
        scanLines excluded read (index + 1) ls

theorem exists_of_mem_scanLines {α : Type} {excluded : Nat → Bool}
    {read : Nat → List Char → List α} {x : α} :
    ∀ {ls : List (List Char)} {index : Nat}, x ∈ scanLines excluded read index ls →
      ∃ i l, index ≤ i ∧ ls[i - index]? = some l ∧ excluded i = false ∧
        x ∈ read (i + 1) (chomp l) := by
  intro ls
  induction ls with
  | nil => intro index h; simp [scanLines] at h
  | cons l ls ih =>
      intro index h
      simp only [scanLines] at h
      rcases List.mem_append.1 h with h | h
      · by_cases he : excluded index = true
        · simp [he] at h
        · exact ⟨index, l, Nat.le_refl _, by simp, Bool.eq_false_iff.2 he, by simpa [he] using h⟩
      · obtain ⟨i, m, hi, hm, hex, hx⟩ := ih h
        refine ⟨i, m, by omega, ?_, hex, hx⟩
        have : i - index = (i - (index + 1)) + 1 := by omega
        rw [this, List.getElem?_cons_succ]
        exact hm

/-- **Reads a document** at a path, seen from the working directory. -/
def parse (dialect : Markdown.Dialect) (cwd path content : String) : Document :=
  let lines := Text.lines content.toList
  let blanked := frontmatterLines content.toList
  let blocks := Markdown.blocks dialect (body lines blanked)
  let excluded := isExcluded blanked blocks
  let headings := headingsOf blocks
  { path, content, lines, blocks, headings
    anchors := scanLines excluded Anchor.ofLine 0 lines ++ headings.map Anchor.ofHeading
    links := scanLines excluded
      (fun number line => Link.ofLine ⟨cwd, path, number⟩ (String.ofList line)) 0 lines }

/-- A document that came of parsing a text. -/
def IsParsed (d : Document) : Prop :=
  ∃ dialect cwd path content, d = parse dialect cwd path content

/-- **The lines of a document make up its content.** -/
theorem flatten_lines_parse (dialect : Markdown.Dialect) (cwd path content : String) :
    (parse dialect cwd path content).lines.flatten = content.toList := by
  simp [parse]

theorem source_of_mem_ofCitations {origin : Origin} {line : List Char} {cs : List Citation}
    {l : Link} (h : l ∈ Link.ofCitations origin line cs) : l.source = origin.source := by
  fun_induction Link.ofCitations origin line cs with
  | case1 => simp at h
  | case2 c => simp only [List.mem_singleton] at h; subst h; rfl
  | case3 c next rest ih =>
      rcases List.mem_cons.1 h with rfl | h
      · rfl
      · exact ih h

/-- Every link says which document holds it. -/
theorem source_of_mem_links {dialect : Markdown.Dialect} {cwd path content : String} {l : Link}
    (h : l ∈ (parse dialect cwd path content).links) : l.source = path := by
  obtain ⟨_, _, _, _, _, hl⟩ := exists_of_mem_scanLines h
  exact source_of_mem_ofCitations hl

end Document

end Citations

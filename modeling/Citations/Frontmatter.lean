/-
**Frontmatter.**

A document may begin with metadata between two lines of three dashes.  White space may follow the
dashes, and line feeds in it count as part of the frontmatter; as many as possible belong to the
opening line, and the first line that can close the frontmatter does.

Main definitions:

* `Citations.Frontmatter.rest?` — the text behind the frontmatter;
* `Citations.frontmatterLines` — the number of lines that the frontmatter takes.
-/

import Citations.Text.Blank

set_option relaxedAutoImplicit false
set_option autoImplicit false

namespace Citations

open Text

namespace Frontmatter

/-- The ends of a text that stand behind a line feed in the white space it starts with, the
shortest one first. -/
def behindBreaks : List Char → List (List Char)
  | [] => []
  | c :: cs => if isBlank c then behindBreaks cs ++ (if c = '\n' then [cs] else []) else []

/-- The text behind the first line of dashes that white space with a line feed in it ends. -/
def behindClosing : List Char → Option (List Char)
  | [] => none
  | c :: cs =>
      if c = '\n' ∧ "---".toList.isPrefixOf cs then
        ((behindBreaks (cs.drop 3)).head?).or (behindClosing cs)
      else behindClosing cs

/-- **The text behind the frontmatter**, if there is one. -/
def rest? (cs : List Char) : Option (List Char) :=
  if "---".toList.isPrefixOf cs then (behindBreaks (cs.drop 3)).findSome? behindClosing else none

theorem suffix_of_mem_behindBreaks {cs r : List Char} (h : r ∈ behindBreaks cs) : r <:+ cs := by
  induction cs with
  | nil => simp [behindBreaks] at h
  | cons c cs ih =>
      simp only [behindBreaks] at h
      split at h
      · rcases List.mem_append.1 h with h | h
        · exact (ih h).trans (List.suffix_cons c cs)
        · split at h
          · simp only [List.mem_singleton] at h
            exact h ▸ List.suffix_cons c cs
          · simp at h
      · simp at h

end Frontmatter

/-- The frontmatter of a text, empty if there is none. -/
def frontmatter (cs : List Char) : List Char :=
  match Frontmatter.rest? cs with
  | some rest => cs.take (cs.length - rest.length)
  | none => []

/-- **The number of lines that the frontmatter takes.** -/
def frontmatterLines (cs : List Char) : Nat := (frontmatter cs).count '\n'

end Citations

/-
**Headings and their ids.**

A heading can be cited by its text or by an encoded id, in which colons are dropped and white space
is written `%20`.  A heading may also give itself an id, as in `Title {#id}`, which then replaces
both.  Texts that differ in inline decoration only are compared after it is removed.

Main definitions:

* `Citations.Heading` — a heading with its level and its line;
* `Citations.joinWords` — a text with something else for each run of white space;
* `Citations.encodeHeadingId` — the encoded id of a heading text;
* `Citations.explicitId` — the title and the id of a heading that names its id;
* `Citations.undecorate` — a text without inline decoration.

Main results:

* `Citations.colon_notMem_encodeHeadingId` — an encoded id holds no colon.
-/

import Citations.Text.Blank
import Citations.Text.Scan

set_option relaxedAutoImplicit false
set_option autoImplicit false

namespace Citations

open Text

/-- A heading with its level, its text as written, and its line, counted from one. -/
structure Heading where
  level : Nat
  text : String
  line : Nat
  deriving DecidableEq

/-! ### Encoded ids -/

/-- A text with `sep` in the place of each run of white space; `inside` says whether the text
before ends in white space. -/
def joinWordsFrom (sep : List Char) : (inside : Bool) → List Char → List Char
  | _, [] => []
  | inside, c :: cs =>
      if isBlank c then (if inside then [] else sep) ++ joinWordsFrom sep true cs
      else c :: joinWordsFrom sep false cs

/-- A text with `sep` in the place of each run of white space. -/
def joinWords (sep cs : List Char) : List Char := joinWordsFrom sep false cs

theorem mem_joinWordsFrom {sep : List Char} {x : Char} :
    ∀ {cs : List Char} {inside : Bool},
      x ∈ joinWordsFrom sep inside cs → x ∈ sep ∨ x ∈ cs ∧ isBlank x = false := by
  intro cs
  induction cs with
  | nil => intro inside h; simp [joinWordsFrom] at h
  | cons c cs ih =>
      intro inside h
      simp only [joinWordsFrom] at h
      by_cases hc : isBlank c = true
      · rw [if_pos hc] at h
        rcases List.mem_append.1 h with h | h
        · cases inside <;> simp_all
        · rcases ih h with h | ⟨h, hx⟩
          · exact .inl h
          · exact .inr ⟨List.mem_cons_of_mem _ h, hx⟩
      · rw [if_neg hc] at h
        rcases List.mem_cons.1 h with rfl | h
        · exact .inr ⟨List.mem_cons_self .., Bool.eq_false_iff.2 hc⟩
        · rcases ih h with h | ⟨h, hx⟩
          · exact .inl h
          · exact .inr ⟨List.mem_cons_of_mem _ h, hx⟩

/-- **The encoded id of a heading text**: colons are dropped and white space is written `%20`. -/
def encodeHeadingId (cs : List Char) : List Char :=
  joinWords ['%', '2', '0'] (cs.filter (· ≠ ':'))

/-- An encoded id holds no colon. -/
theorem colon_notMem_encodeHeadingId (cs : List Char) : ':' ∉ encodeHeadingId cs := by
  intro h
  rcases mem_joinWordsFrom h with h | ⟨h, _⟩
  · simp at h
  · simp at h

/-! ### Ids that a heading names itself -/

/-- The id of a text that is, after white space, just `{#id}`; a line feed may follow. -/
def idInBraces (cs : List Char) : Option (List Char) :=
  match trimStart cs with
  | '{' :: '#' :: rest =>
      let id := rest.takeWhile (· ≠ '}')
      match rest.dropWhile (· ≠ '}') with
      | ['}'] | ['}', '\n'] => if id.isEmpty then none else some id
      | _ => none
  | _ => none

/-- The title and the id of a heading that ends in `{#id}`.  The title is the shortest start on one
line that leaves nothing else, and holds at least one character. -/
def explicitId : List Char → Option (List Char × List Char)
  | [] => none
  | c :: cs =>
      if c = '\n' then none
      else
        match idInBraces cs with
        | some id => some ([c], id)
        | none => (explicitId cs).map fun (title, id) => (c :: title, id)

/-! ### Inline decoration -/

/-- Reads an inline link, of which the text is kept. -/
def readInlineLink : Reader (List Char) := fun _ cs =>
  match cs with
  | '[' :: rest =>
      let text := rest.takeWhile (· ≠ ']')
      match rest.dropWhile (· ≠ ']') with
      | ']' :: '(' :: tail =>
          let target := tail.takeWhile (· ≠ ')')
          if text.isEmpty || target.length == tail.length then none
          else some (text, text.length + target.length + 4)
      | _ => none
  | _ => none

/-- Reads a highlight, of which the inside is kept. -/
def readHighlight : Reader (List Char) := fun _ cs =>
  match cs with
  | '=' :: '=' :: rest =>
      let inner := rest.takeWhile (· ≠ '=')
      match rest.dropWhile (· ≠ '=') with
      | '=' :: '=' :: _ => if inner.isEmpty then none else some (inner, inner.length + 4)
      | _ => none
  | _ => none

/-- **A text without inline decoration**: links, highlights, asterisks and backticks. -/
def undecorate (cs : List Char) : List Char :=
  trim ((replaceAll readHighlight (replaceAll readInlineLink cs)).filter
    fun c => c ≠ '*' && c ≠ '`')

end Citations

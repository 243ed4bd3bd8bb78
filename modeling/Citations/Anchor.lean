/-
**Anchors.**

An anchor is a place in a document that a link can name.  Each heading is one, and a line declares
block anchors in three ways: by a caret and a name at its end, by a caret and a name anywhere, and
by a highlighted bold text.

Main definitions:

* `Citations.Anchor` — an anchor with its id and its place;
* `Citations.Anchor.ofHeading` — the anchor of a heading;
* `Citations.Anchor.ofLine` — the block anchors of a line.

Main results:

* `Citations.Anchor.line_ofHeading` — a heading's anchor is on the heading's line;
* `Citations.Anchor.line_of_mem_ofLine` — the anchors of a line are on that line.
-/

import Citations.Heading
import Citations.Link.Citation

set_option relaxedAutoImplicit false
set_option autoImplicit false

namespace Citations

open Text

/-- What an anchor stands for: a heading, cited by its id or its encoded id and compared by its
title, or a block, of which a highlight is the whole declaration. -/
inductive AnchorForm where
  | header (encodedId title : String)
  | block (highlight : Option String)
  deriving DecidableEq

/-- An anchor with its id and its place: lines count from one and columns from zero. -/
structure Anchor where
  id : String
  line : Nat
  column : Nat
  form : AnchorForm
  deriving DecidableEq

namespace Anchor

/-- Whether the anchor is a heading or a block. -/
def kind (a : Anchor) : AnchorKind :=
  match a.form with
  | .header .. => .header
  | .block _ => .block

/-- The encoded id of a heading. -/
def encodedId? (a : Anchor) : Option String :=
  match a.form with
  | .header encodedId _ => some encodedId
  | .block _ => none

/-- The text that the anchor was declared with, where it is not just the id. -/
def rawText? (a : Anchor) : Option String :=
  match a.form with
  | .header _ title => some title
  | .block highlight => highlight

/-! ### Headings -/

/-- **The anchor of a heading.** -/
def ofHeading (h : Heading) : Anchor :=
  match explicitId h.text.toList with
  | some (title, id) =>
      ⟨String.ofList id, h.line, 0, .header (String.ofList id) (String.ofList (trim title))⟩
  | none =>
      ⟨h.text, h.line, 0, .header (String.ofList (encodeHeadingId h.text.toList)) h.text⟩

@[simp] theorem line_ofHeading (h : Heading) : (ofHeading h).line = h.line := by
  unfold ofHeading
  split <;> rfl

@[simp] theorem kind_ofHeading (h : Heading) : (ofHeading h).kind = .header := by
  unfold ofHeading
  split <;> rfl

/-! ### Blocks -/

/-- Reads a caret and a name that only white space follows on the line. -/
def readTrailing : Reader String := fun prev cs =>
  match cs with
  | '^' :: rest =>
      let name := rest.takeWhile Citation.isAnchorChar
      if Citation.admitsCaret prev && !name.isEmpty && allBlank (rest.drop name.length) then
        some (String.ofList name, name.length + 1)
      else none
  | _ => none

/-- Reads a highlighted bold text: its inside, and the whole of it. -/
def readEmphasis : Reader (String × String) := fun _ cs =>
  match cs with
  | '=' :: '=' :: '*' :: '*' :: rest =>
      let inner := rest.takeWhile (· ≠ '*')
      match rest.dropWhile (· ≠ '*') with
      | '*' :: '*' :: '=' :: '=' :: _ =>
          if inner.isEmpty then none
          else some ((String.ofList inner, String.ofList (cs.take (inner.length + 8))),
            inner.length + 8)
      | _ => none
  | _ => none

/-- The name at the end of a line, unless it is a number or stands in a code span. -/
def trailing (line : List Char) : Option (Found String) :=
  (find? readTrailing line).filter fun m =>
    !m.value.toList.all Char.isDigit && !inSpans (codeSpans line) m.start

/-- The names behind carets anywhere on a line, outside code spans and without numbers and
versions. -/
def inline (line : List Char) : List (Found String) :=
  (findAll Citation.caret line).filterMap fun m =>
    if inSpans (codeSpans line) m.start then none
    else m.value.bind fun b => b.anchor.map fun name => ⟨m.start, m.stop, name⟩

/-- **The block anchors of a line**: the one at its end, then the others behind carets, then the
highlighted bold texts. -/
def ofLine (number : Nat) (line : List Char) : List Anchor :=
  let last := trailing line
  (last.toList.map fun m => ⟨m.value, number, m.start, .block none⟩) ++
  ((inline line).filter fun m => !last.any fun t => t.start == m.start).map
    (fun m => ⟨m.value, number, m.start, .block none⟩) ++
  (findAll readEmphasis line).map fun m => ⟨m.value.1, number, m.start, .block (some m.value.2)⟩

theorem line_of_mem_ofLine {number : Nat} {line : List Char} {a : Anchor}
    (h : a ∈ ofLine number line) : a.line = number := by
  simp only [ofLine, List.mem_append, List.mem_map] at h
  rcases h with (⟨_, _, rfl⟩ | ⟨_, _, rfl⟩) | ⟨_, _, rfl⟩ <;> rfl

theorem kind_of_mem_ofLine {number : Nat} {line : List Char} {a : Anchor}
    (h : a ∈ ofLine number line) : a.kind = .block := by
  simp only [ofLine, List.mem_append, List.mem_map] at h
  rcases h with (⟨_, _, rfl⟩ | ⟨_, _, rfl⟩) | ⟨_, _, rfl⟩ <;> rfl

end Anchor

end Citations

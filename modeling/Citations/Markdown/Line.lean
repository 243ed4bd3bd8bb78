/-
**Lines as the block structure sees them.**

A container such as a quotation takes the start of each of its lines for itself.  What is left is
again a line: the text behind the container's marks, how much of it comes before the content, and
the column at which the content stands.  A tab leads to the next multiple of four, and what part of
it a mark has used up is remembered.

Main definitions:

* `Citations.Markdown.Line` — a line inside its containers;
* `Citations.Markdown.sourceLines` — the lines of a source;
* `Citations.Markdown.Line.unquote` — a line behind a quotation mark;
* `Citations.Markdown.Line.inItem` — the first line of a list item, behind its mark;
* `Citations.Markdown.Line.dropIndent` — the text of a line without the indentation of its block.

Main results:

* `Citations.Markdown.number_unquote`, `Citations.Markdown.number_inItem` — a line keeps its number.
-/

set_option relaxedAutoImplicit false
set_option autoImplicit false

namespace Citations.Markdown

/-- A line inside its containers.  The indentation is the column of the content; it is below zero
for a line that continues a paragraph without the marks of its containers. -/
structure Line where
  /-- The number of the line, counted from zero. -/
  number : Nat
  /-- What stands behind the marks of the containers. -/
  text : List Char
  /-- How many characters of the text come before the content. -/
  blanks : Nat
  /-- The column of the content. -/
  indent : Int
  /-- The columns that the containers have used up. -/
  used : Nat
  /-- Whether the source ends with this line, without a line feed. -/
  last : Bool

/-- A space or a tab. -/
def isGap (c : Char) : Bool := c == ' ' || c == '\t'

/-- The column behind a tab at column `col`, of `used` columns more. -/
def tabStop (used col : Nat) : Nat := col + (4 - (col + used) % 4)

/-- How many spaces and tabs a text starts with, and the column behind them, when it starts at
column `col`. -/
def gap (used : Nat) : (col : Nat) → List Char → Nat × Nat
  | col, ' ' :: cs => let r := gap used (col + 1) cs; (r.1 + 1, r.2)
  | col, '\t' :: cs => let r := gap used (tabStop used col) cs; (r.1 + 1, r.2)
  | col, _ => (0, col)

namespace Line

/-- The content of a line. -/
def body (l : Line) : List Char := l.text.drop l.blanks

/-- Whether a line has no content. -/
def isEmpty (l : Line) : Bool := l.text.length ≤ l.blanks

/-- A line of the source, outside of all containers. -/
def ofText (number : Nat) (text : List Char) (last : Bool) : Line :=
  let r := gap 0 0 text
  ⟨number, text, r.1, r.2, 0, last⟩

/-! ### Containers -/

/-- A line that starts with a quotation mark, behind that mark and one space.  A tab behind the
mark gives up one of its columns. -/
def unquote (l : Line) : Line :=
  let start := l.indent.toNat + 1
  let rest := l.body.tail
  let behind (text : List Char) (col extra spaced : Nat) : Line :=
    let r := gap (l.used + extra) col text
    { l with text := text, blanks := r.1, indent := (r.2 : Int) - col, used := start + spaced }
  match rest with
  | ' ' :: text => behind text (start + 1) 0 1
  | '\t' :: text =>
      if (l.used + start) % 4 = 3 then behind text (start + 1) 0 1 else behind rest start 1 1
  | _ => behind rest start 0 0

theorem number_unquote (l : Line) : l.unquote.number = l.number := by
  unfold unquote
  dsimp only
  split
  · rfl
  · split <;> rfl
  · rfl

/-- The first line of a list item behind a mark of the given length, and the indentation of the
item: that of the content, but one column behind the mark if there is no content or if it stands
more than four columns away. -/
def inItem (l : Line) (mark : Nat) : Line × Nat :=
  let start := l.indent.toNat + mark
  let r := gap l.used start (l.body.drop mark)
  let content := l.blanks + mark + r.1
  let distance := if l.text.length ≤ content then 1 else r.2 - start
  ({ l with blanks := content, indent := r.2 }, start + if 4 < distance then 1 else distance)

theorem number_inItem (l : Line) (mark : Nat) : (l.inItem mark).1.number = l.number := rfl

/-- A line that continues a paragraph without the marks of its containers. -/
def lazy (l : Line) : Line := { l with indent := -1 }

/-! ### Text -/

/-- The rest of a line behind `width` columns, `col` of which are passed; `masked` characters that
are not blank still count as one column each.  A tab that reaches too far leaves spaces. -/
def dropColumns (used width : Nat) : (col masked : Nat) → List Char → List Char
  | col, _, [] => List.replicate (col - width) ' '
  | col, masked, c :: cs =>
      if width ≤ col then List.replicate (col - width) ' ' ++ c :: cs
      else if c = '\t' then dropColumns used width (tabStop used col) (masked - 1) cs
      else if c = ' ' ∨ 0 < masked then dropColumns used width (col + 1) (masked - 1) cs
      else c :: cs

/-- The text of a line without the indentation of its block. -/
def dropIndent (l : Line) (width : Nat) : List Char := dropColumns l.used width 0 l.blanks l.text

end Line

/-! ### Sources -/

/-- A source in which every line ends in a line feed and NUL is replaced. -/
def normalizeSource : List Char → List Char
  | [] => []
  | '\r' :: '\n' :: cs => '\n' :: normalizeSource cs
  | c :: cs =>
      (if c = '\r' then '\n' else if c = '\x00' then '\ufffd' else c) :: normalizeSource cs

/-- The lines of a normalised source from line `number` on; `before` is what the current line holds
so far, last character first.  At the end, a line that holds only spaces and tabs is left out. -/
def splitSource : (number : Nat) → (before : List Char) → List Char → List Line
  | number, before, [] =>
      if before.all isGap then [] else [Line.ofText number before.reverse true]
  | number, before, c :: cs =>
      if c = '\n' then Line.ofText number before.reverse false :: splitSource (number + 1) [] cs
      else splitSource number (c :: before) cs

/-- **The lines of a source.** -/
def sourceLines (source : List Char) : List Line := splitSource 0 [] (normalizeSource source)

end Citations.Markdown

/-
**The block structure of a source.**

The blocks of a source are found line by line.  At each place the kinds of block are tried in a
fixed order, a paragraph being what is left.  A quotation or a list item reads its own lines again,
behind its marks, one level deeper; the number of levels is limited, and lines beyond the limit hold
no blocks.

A paragraph goes on over lines that do not start another block.  Which kinds may interrupt depends
on what is being continued.

Main definitions:

* `Citations.Markdown.Frame` — where a block may stand;
* `Citations.Markdown.Frame.interrupts` — whether a line starts a block that ends what is before;
* `Citations.Markdown.blocksWithin` — the blocks inside a container, with a limit on the levels;
* `Citations.Markdown.blocks` — the blocks of a source.
-/

import Citations.Markdown.Block
import Citations.Markdown.Dialect
import Citations.Markdown.Html
import Citations.Markdown.Mark
import Citations.Markdown.Reference
import Citations.Markdown.Table

set_option relaxedAutoImplicit false
set_option autoImplicit false

namespace Citations.Markdown

/-! ### Frames -/

/-- Where a block may stand: the dialect, the indentation of the container and that of the list
around it, the line at which the container ends, and the line up to which a paragraph in it may be
continued. -/
structure Frame where
  dialect : Dialect
  indent : Nat
  listIndent : Option Nat
  stop : Nat
  limit : Nat

/-- What a line may interrupt: a paragraph, a reference definition, a quotation or a list. -/
inductive Continued where
  | paragraph
  | reference
  | quote
  | list
  deriving DecidableEq

namespace Frame

/-- Whether a line is indented so far that it is code. -/
def isCode (f : Frame) (l : Line) : Bool := f.dialect.structured && 4 ≤ l.indent - f.indent

/-- Whether a line goes on with a paragraph whatever it holds: it is indented far, or it lacks the
marks of its containers. -/
def isLoose (f : Frame) (l : Line) : Bool := 3 < l.indent - f.indent || l.indent < 0

/-- The mark of the list item that a line starts.  A line that is indented far, compared with the
list around it, does not start an item where it stands left of the container. -/
def itemMark (f : Frame) (l : Line) : Option ListMark :=
  if f.isCode l then none
  else if f.listIndent.any (fun li => 4 ≤ l.indent - li) && l.indent < f.indent then none
  else listMark l.body

/-- Whether an item may interrupt a paragraph: its number is one if it has a number, and it is not
empty. -/
def mayInterrupt (m : ListMark) (l : Line) : Bool :=
  m.number.all (· = 1) && !(l.body.drop m.length).all isGap

/-- The number of columns of the table that a line starts together with the next one. -/
def tableHead (f : Frame) (stop : Nat) (l : Line) (rest : List Line) : Option Nat :=
  match rest with
  | second :: _ =>
      if f.dialect.tables && l.number + 2 ≤ stop && !(second.indent < f.indent) &&
          !f.isCode second && !f.isCode l then
        Table.head l.body second.body
      else none
  | [] => none

/-- Whether a line, given those behind it, starts a block that ends what is being continued; `stop`
is where the lines end. -/
def interrupts (f : Frame) (c : Continued) (stop : Nat) (l : Line) (rest : List Line) : Bool :=
  f.dialect.structured && (
    ((c = .paragraph || c = .reference) && (f.tableHead stop l rest).isSome) ||
    !f.isCode l && (
      (fenceMark l.body).isSome || l.body.head? == some '>' || isBreak l.body ||
      c != .list && (
        (f.itemMark l).any (fun m =>
          !(c = .paragraph && f.indent ≤ l.indent) || mayInterrupt m l) ||
        f.dialect.html && (Html.opening l.body).any Html.Kind.interrupts ||
        (headingMark l.body).isSome)))

end Frame

/-! ### Paragraphs, headings and definitions -/

/-- The lines at the start of a list that go on with what is being continued. -/
def continuation (f : Frame) (c : Continued) : List Line → List Line
  | [] => []
  | l :: rest =>
      if f.limit ≤ l.number || l.isEmpty then []
      else if f.isLoose l || !f.interrupts c f.limit l rest then l :: continuation f c rest
      else []

/-- The line that underlines a heading, and the level of the heading. -/
def findUnderline (f : Frame) : List Line → Option (Nat × Nat)
  | [] => none
  | l :: rest =>
      if f.stop ≤ l.number || l.isEmpty then none
      else if 3 < l.indent - f.indent then findUnderline f rest
      else
        match (if f.indent ≤ l.indent then underline l.body else none) with
        | some level => some (l.number, level)
        | none =>
            if l.indent < 0 || !f.interrupts .paragraph f.stop l rest then findUnderline f rest
            else none

/-- The text of an underlined heading. -/
def headingText (f : Frame) (ls : List Line) : List Char :=
  trimMargins (['\n'].intercalate (ls.map (·.dropIndent f.indent)))

/-- The number of lines that a reference definition takes. -/
def definitionLines (f : Frame) (l : Line) (rest : List Line) : Option Nat :=
  Reference.lineCount
    (['\n'].intercalate (l.body :: (continuation f .reference rest).map Line.body))

/-! ### Code and HTML -/

/-- Where indented code ends: behind its last line, empty lines aside; `stop` is the end so far. -/
def indentedCodeEnd (f : Frame) : (stop : Nat) → List Line → Nat
  | stop, [] => stop
  | stop, l :: rest =>
      if f.stop ≤ l.number then stop
      else if l.isEmpty then indentedCodeEnd f stop rest
      else if f.isCode l then indentedCodeEnd f (l.number + 1) rest
      else stop

/-- Where code between marks ends, given the mark and the number of marks that opened it; `at_` is
the number of the next line.  An empty line at the very end of the source does not belong to it. -/
def fencedCodeEnd (f : Frame) (mark : Char) (count : Nat) : (next : Nat) → List Line → Nat
  | next, [] => next
  | next, l :: rest =>
      if f.stop ≤ l.number then next
      else if !l.isEmpty && l.indent < f.indent then next
      else if l.isEmpty && l.last then next
      else if !f.isCode l && closesFence mark count l.body then next + 1
      else fencedCodeEnd f mark count (next + 1) rest

/-- Where an HTML block ends; `next` is the number of the next line.  A line that stands left of the
container ends the block, unless it is empty and the block may hold empty lines. -/
def htmlEnd (f : Frame) (kind : Html.Kind) : (next : Nat) → List Line → Nat
  | next, [] => next
  | next, l :: rest =>
      if f.stop ≤ l.number then next
      else if l.indent < f.indent && (!l.isEmpty || kind.endsIn []) then next
      else if kind.endsIn l.body then (if l.body.isEmpty then next else next + 1)
      else htmlEnd f kind (next + 1) rest

/-! ### Tables -/

/-- The number of rows below the head of a table with the given number of columns, of which `added`
cells were missing so far. -/
def tableRows (f : Frame) (columns : Nat) : (added : Int) → List Line → Nat
  | _, [] => 0
  | added, l :: rest =>
      let row := trimMargins l.body
      let added := added + columns - Table.cells row
      if f.stop ≤ l.number || l.indent < f.indent || f.interrupts .quote f.stop l rest ||
          row.isEmpty || f.isCode l || Table.maxAddedCells < added then 0
      else tableRows f columns added rest + 1

/-- The blocks of a table that starts at line `first` and has the given number of rows below its
head. -/
def tableBlocks (first rows : Nat) : List Block :=
  ⟨.table, first, first + 2 + rows⟩ :: ⟨.tablePart, first, first + 1⟩ ::
    (if rows = 0 then [] else [⟨.tablePart, first + 2, first + 2 + rows⟩]) ++
    (List.range rows).map fun i => ⟨.tablePart, first + 2 + i, first + 3 + i⟩

/-! ### Quotations -/

/-- The lines of a quotation behind its marks, followed by those that do not belong to it; the
number of the first of those; and whether it starts another block, so that no paragraph in the
quotation may reach beyond.  `afterEmpty` says whether the quotation has an empty line before. -/
def quoteLines (f : Frame) : (afterEmpty : Bool) → (next : Nat) → List Line → List Line × Nat × Bool
  | _, next, [] => ([], next, false)
  | afterEmpty, next, l :: rest =>
      if f.stop ≤ l.number || l.isEmpty then (l :: rest, next, false)
      else if l.body.head? == some '>' && !(l.indent < f.indent) then
        let r := quoteLines f l.unquote.isEmpty (next + 1) rest
        (l.unquote :: r.1, r.2)
      else if afterEmpty then (l :: rest, next, false)
      else if f.interrupts .quote f.stop l rest then (l :: rest, next, true)
      else
        let r := quoteLines f afterEmpty (next + 1) rest
        (l.lazy :: r.1, r.2)

/-! ### One block -/

/-- What is found from a line on: blocks, and the number of the line behind them. -/
abbrev Blocks := List Block × Nat

/-- How the lines of a container are read. -/
abbrev Reading := Frame → List Line → Blocks

/-- A quotation, whose lines are read by `inside`. -/
def readQuote (inside : Reading) (f : Frame) (l : Line) (rest : List Line) : Blocks :=
  let (ls, stop, hard) := quoteLines f false l.number (l :: rest)
  let inner := inside
    { f with indent := 0, stop := stop, limit := if hard then stop else f.limit } ls
  (⟨.quote, l.number, inner.2⟩ :: inner.1, inner.2)

/-- The items of a list from line `l` on, which has the given mark; `count` bounds their number. -/
def readItems (inside : Reading) (f : Frame) : (count : Nat) → ListMark → Line → List Line → Blocks
  | 0, _, l, _ => ([], l.number + 1)
  | count + 1, m, l, rest =>
      let (first, indent) := l.inItem m.length
      let inner :=
        if first.isEmpty && rest.head?.all Line.isEmpty then ([], min (l.number + 2) f.stop)
        else inside { f with indent := indent, listIndent := some f.indent } (first :: rest)
      let item : Block := ⟨.item, l.number, inner.2⟩
      match rest.drop (inner.2 - l.number - 1) with
      | [] => (item :: inner.1, inner.2)
      | l' :: rest' =>
          if f.stop ≤ inner.2 || l'.indent < f.indent || f.isCode l' ||
              f.interrupts .list f.stop l' rest' then
            (item :: inner.1, inner.2)
          else
            match listMark l'.body with
            | none => (item :: inner.1, inner.2)
            | some m' =>
                if m.sameKind m' then
                  let others := readItems inside f count m' l' rest'
                  (item :: inner.1 ++ others.1, others.2)
                else (item :: inner.1, inner.2)

/-- A list, whose items are read by `inside`. -/
def readList (inside : Reading) (f : Frame) (m : ListMark) (l : Line) (rest : List Line) : Blocks :=
  let items := readItems inside f (rest.length + 1) m l rest
  (⟨.list, l.number, items.2⟩ :: items.1, items.2)

/-- A block without containers that only looks at the start of its line: code between marks or a
thematic break. -/
def readMarked (f : Frame) (l : Line) (rest : List Line) : Option Blocks :=
  match fenceMark l.body with
  | some (mark, count) =>
      let stop := fencedCodeEnd f mark count (l.number + 1) rest
      some ([⟨.fencedCode, l.number, stop⟩], stop)
  | none => none

/-- A reference definition, an HTML block, a heading, or else a paragraph. -/
def readText (f : Frame) (l : Line) (rest : List Line) : Blocks :=
  let n := l.number
  match (if l.body.head? == some '[' then definitionLines f l rest else none) with
  | some count => ([], n + count)
  | none =>
  match (if f.dialect.html then Html.opening l.body else none) with
  | some kind =>
      let stop := if kind.endsIn l.body then n + 1 else htmlEnd f kind (n + 1) rest
      ([⟨.html, n, stop⟩], stop)
  | none =>
  match headingMark l.body with
  | some (level, text) => ([⟨.heading level (String.ofList text), n, n + 1⟩], n + 1)
  | none =>
  match findUnderline f rest with
  | some (stop, level) =>
      let text := String.ofList (headingText f (l :: rest.take (stop - n - 1)))
      ([⟨.heading level text, n, stop + 1⟩, ⟨.headingText, n, stop⟩], stop + 1)
  | none =>
      let stop := n + 1 + (continuation f .paragraph rest).length
      ([⟨.paragraph, n, stop⟩], stop)

/-- **The block that starts at a line.**  The kinds are tried in order; `inQuote` and `inItem` read
the lines inside a container. -/
def readBlock (inQuote inItem : Reading) (f : Frame) (l : Line) (rest : List Line) : Blocks :=
  let n := l.number
  if !f.dialect.structured then
    let stop := n + 1 + (continuation f .paragraph rest).length
    ([⟨.paragraph, n, stop⟩], stop)
  else
  -- kinds that can start the same line are told apart by the order in which they are tried
  match f.tableHead f.stop l rest with
  | some columns =>
      let rows := tableRows f columns 0 rest.tail
      (tableBlocks n rows, n + 2 + rows)
  | none =>
  if f.isCode l then
    let stop := indentedCodeEnd f (n + 1) rest
    ([⟨.indentedCode, n, stop⟩], stop)
  else
  match readMarked f l rest with
  | some r => r
  | none =>
  if l.body.head? == some '>' then readQuote inQuote f l rest
  else if isBreak l.body then ([⟨.rule, n, n + 1⟩], n + 1)
  else
  match f.itemMark l with
  | some m => readList inItem f m l rest
  | none => readText f l rest

/-! ### All blocks -/

/-- The blocks of a list of lines, one after another, each being read by `block`; `count` bounds
their number.  The lines before `next` are behind, empty lines are passed over, and a line that
stands left of the container ends it. -/
def readBlocks (block : Frame → Line → List Line → Blocks) (f : Frame) :
    (count next : Nat) → List Line → Blocks
  | 0, next, _ => ([], next)
  | count + 1, next, ls =>
      if f.stop ≤ next then ([], next)
      else
        match ls.dropWhile fun l => l.isEmpty && l.number < f.limit with
        | [] => ([], f.limit)
        | l :: rest =>
            if f.stop ≤ l.number || l.indent < f.indent then ([], l.number)
            else
              let r := block f l rest
              let ls := rest.drop (r.2 - l.number - 1)
              -- one empty line behind the last block still belongs to the container
              let skip := if r.2 < f.stop && ls.head?.any Line.isEmpty then 1 else 0
              let others := readBlocks block f count (r.2 + skip) (ls.drop skip)
              (r.1 ++ others.1, others.2)

/-- **The blocks inside a container.**  A quotation takes one of the levels that are left, a list
takes two, and with no level left the lines hold no blocks. -/
def blocksWithin : (levels : Nat) → Reading
  | 0, f, ls =>
      readBlocks (fun f _ _ => ([], f.stop)) f (ls.length + 1)
        ((ls.head?.map Line.number).getD 0) ls
  | 1, f, ls =>
      readBlocks (readBlock (blocksWithin 0) (blocksWithin 0)) f (ls.length + 1)
        ((ls.head?.map Line.number).getD 0) ls
  | levels + 2, f, ls =>
      readBlocks (readBlock (blocksWithin (levels + 1)) (blocksWithin levels)) f (ls.length + 1)
        ((ls.head?.map Line.number).getD 0) ls

/-- **The blocks of a source**, in document order. -/
def blocks (d : Dialect) (source : List Char) : List Block :=
  let ls := sourceLines source
  (blocksWithin d.nesting ⟨d, 0, none, ls.length, ls.length⟩ ls).1

end Citations.Markdown

/-
**Tables.**

A table starts with a row of cells and a row of dashes that has as many columns.  Only the number of
cells in a row matters here.

Main definitions:

* `Citations.Markdown.Table.cells` — the number of cells in a row;
* `Citations.Markdown.Table.columns` — the number of columns that a row of dashes has;
* `Citations.Markdown.Table.head` — the number of columns of the table that two lines start.
-/

import Citations.Markdown.Line
import Citations.Markdown.Margin

set_option relaxedAutoImplicit false
set_option autoImplicit false

namespace Citations.Markdown.Table

/-- The pieces of a text between the bars that no backslash precedes. -/
def splitBars : (escaped : Bool) → List Char → List (List Char)
  | _, [] => [[]]
  | escaped, c :: cs =>
      if c = '|' ∧ escaped = false then [] :: splitBars false cs
      else
        match splitBars (c = '\\') cs with
        | [] => [[c]]
        | p :: ps => (c :: p) :: ps

/-- The number of cells in a row: empty pieces at either end are no cells. -/
def cells (row : List Char) : Nat :=
  let pieces := splitBars false row
  let pieces := if pieces.head? = some [] then pieces.tail else pieces
  let pieces := if pieces.getLast? = some [] then pieces.dropLast else pieces
  pieces.length

/-- Whether a piece is a row of dashes with a colon perhaps at either end. -/
def isDashes (piece : List Char) : Bool :=
  let rest := if piece.head? = some ':' then piece.tail else piece
  let dashes := if rest.getLast? = some ':' then rest.dropLast else rest
  !dashes.isEmpty && dashes.all (· = '-')

/-- Whether a row of dashes may start a table: it holds bars, dashes, colons and blanks only, and it
does not look like the item of a list. -/
def isRuler (row : List Char) : Bool :=
  match row with
  | a :: b :: _ =>
      let isRule (c : Char) : Bool := c == '|' || c == '-' || c == ':'
      isRule a && !(a == '-' && isGap b) && row.all fun c => isRule c || isGap c
  | _ => false

/-- The number of columns that a row of dashes has; only its first and its last piece may be
empty. -/
def columns (row : List Char) : Option Nat :=
  let pieces := (splitBars false row).map trimMargins
  let inner := pieces.tail.dropLast
  if inner.any List.isEmpty then none
  else
    let full := pieces.filter (!·.isEmpty)
    if full.all isDashes then some full.length else none

/-- **The number of columns of the table that a row of cells and a row of dashes start.** -/
def head (first second : List Char) : Option Nat :=
  let first := trimMargins first
  if isRuler second && first.contains '|' then
    match columns second with
    | some n => if n = cells first ∧ 0 < n then some n else none
    | none => none
  else none

/-- How many empty cells may be added to short rows before a table ends. -/
def maxAddedCells : Int := 0x10000

end Citations.Markdown.Table

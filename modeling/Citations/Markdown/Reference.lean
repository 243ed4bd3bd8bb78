/-
**Link reference definitions.**

A definition such as `[label]: destination "title"` stands where a paragraph might stand and makes
no block of its own.  It may run over several lines, and when something else follows the title, the
definition ends before the title if that stands on lines of its own.

Main definitions:

* `Citations.Markdown.Reference.label` — the text behind the label;
* `Citations.Markdown.Reference.destination` — the destination, and the text behind it;
* `Citations.Markdown.Reference.isRefused` — whether a destination is one that must not be used;
* `Citations.Markdown.Reference.title` — the text behind the title;
* `Citations.Markdown.Reference.lineCount` — the number of lines that a definition takes.
-/

import Citations.Markdown.Entity
import Citations.Markdown.Line
import Citations.Markdown.Margin

set_option relaxedAutoImplicit false
set_option autoImplicit false

namespace Citations.Markdown.Reference

open Text

/-! ### The label -/

/-- The rest of a text behind the bracket that closes a label, and whether the label holds
anything but white space around it; `full` says so for the part before. -/
def label : (full : Bool) → List Char → Option (List Char × Bool)
  | _, [] => none
  | _, ['\\'] => none
  | _, '\\' :: _ :: cs => label true cs
  | full, c :: cs =>
      if c = '[' then none
      else if c = ']' then some (cs, full)
      else label (full || !isMargin c) cs

/-! ### The destination -/

/-- A part of a text, and the rest. -/
abbrev Split := List Char × List Char

/-- The destination in angle brackets, behind the opening one. -/
def bracketed : List Char → Option Split
  | [] => none
  | ['\\'] => none
  | '\\' :: c :: cs => (bracketed cs).map fun r => ('\\' :: c :: r.1, r.2)
  | c :: cs =>
      if c = '\n' ∨ c = '<' then none
      else if c = '>' then some ([], cs)
      else (bracketed cs).map fun r => (c :: r.1, r.2)

/-- The destination without brackets, inside `depth` parentheses of its own, of which there may be
32: it ends before a space or a control character. -/
def unbracketed : (depth : Nat) → List Char → Option Split
  | depth, [] => if depth = 0 then some ([], []) else none
  | depth, '\\' :: c :: cs =>
      if c = ' ' then (if depth = 0 then some ([], '\\' :: c :: cs) else none)
      else (unbracketed depth cs).map fun r => ('\\' :: c :: r.1, r.2)
  | depth, c :: cs =>
      if c.toNat ≤ 0x20 ∨ c.toNat = 0x7f then
        if depth = 0 then some ([], c :: cs) else none
      else if c = '(' then
        if 32 ≤ depth then none
        else (unbracketed (depth + 1) cs).map fun r => (c :: r.1, r.2)
      else if c = ')' then
        match depth with
        | 0 => some ([], c :: cs)
        | depth + 1 => (unbracketed depth cs).map fun r => (c :: r.1, r.2)
      else (unbracketed depth cs).map fun r => (c :: r.1, r.2)

/-- **The destination at the start of a line**, and the rest of the line. -/
def destination (line : List Char) : Option Split :=
  match line with
  | '<' :: cs => bracketed cs
  | cs => (unbracketed 0 cs).filter fun r => !r.1.isEmpty

/-! ### Addresses that are refused -/

/-- Whether a destination runs a script or reads a file; some pictures may stand in the address
itself, behind an empty name of a user too. -/
def isRefused (dest : List Char) : Bool :=
  let address := (trim (Entity.unescape 0 dest)).map Char.toLower
  let starts (p : String) : Bool := p.toList.isPrefixOf address
  ["vbscript:", "javascript:", "file:", "data:"].any starts &&
    ["gif", "png", "jpeg", "webp"].all fun kind =>
      !starts ("data:image/" ++ kind ++ ";") && !starts ("data:@image/" ++ kind ++ ";")

/-! ### The title -/

/-- Whether a title has anything in it, and the rest of the text behind its closing mark; `full`
says so for the part before. -/
def titleBody (close : Char) : (full : Bool) → List Char → Option (Bool × List Char)
  | _, [] => none
  | full, c :: cs =>
      if c = close then some (full, cs)
      else if c = '(' ∧ close = ')' then none
      else if c = '\\' then
        match cs with
        | [] => none
        | _ :: cs => titleBody close true cs
      else titleBody close true cs

/-- **The title at the start of a text**: whether it has anything in it, and the rest of the
text. -/
def title (cs : List Char) : Option (Bool × List Char) :=
  match cs with
  | '"' :: rest => titleBody '"' false rest
  | '\'' :: rest => titleBody '\'' false rest
  | '(' :: rest => titleBody ')' false rest
  | _ => none

/-! ### The definition -/

/-- A space, a tab or a line feed. -/
def isSpace (c : Char) : Bool := isGap c || c == '\n'

/-- The number of lines of `whole` up to `rest`, which is the end of it. -/
def linesBefore (whole rest : List Char) : Nat := 1 + (whole.count '\n' - rest.count '\n')

/-- Whether only blanks are left on the line. -/
def lineEnds (cs : List Char) : Bool := (cs.takeWhile (· ≠ '\n')).all isGap

/-- The title behind a destination.  White space must come before it, unless the title goes on over
the end of its line. -/
def titleBehind (rest : List Char) : Option (Bool × List Char) :=
  let next := rest.dropWhile isSpace
  (title next).filter fun t => next.length < rest.length || t.2.count '\n' < next.count '\n'

/-- The number of lines that a definition takes, given the text behind its destination. -/
def afterDestination (whole rest : List Char) : Option Nat :=
  let plain := if lineEnds rest then some (linesBefore whole rest) else none
  match titleBehind rest with
  | some (full, after) =>
      if lineEnds after then some (linesBefore whole after)
      else if full then plain else none
  | none => plain

/-- **The number of lines that a definition takes** at the start of a text, which holds all lines
that a paragraph here would hold. -/
def lineCount (whole : List Char) : Option Nat :=
  match whole with
  | '[' :: cs =>
      match label false cs with
      | some (':' :: rest, true) =>
          let rest := rest.dropWhile isSpace
          let line := rest.takeWhile (· ≠ '\n')
          match destination line with
          | some (dest, after) =>
              if isRefused dest then none
              else if after.isEmpty && dest.getLast? == some '\\' && oddBackslashes dest then
                some (linesBefore whole (rest.drop line.length))
              else afterDestination whole (after ++ rest.drop line.length)
          | none => none
      | _ => none
  | _ => none
where
  /-- Whether an odd number of backslashes ends a text. -/
  oddBackslashes (cs : List Char) : Bool := (cs.reverse.takeWhile (· = '\\')).length % 2 = 1

end Citations.Markdown.Reference

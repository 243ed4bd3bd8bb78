/-
**Code spans.**

A run of backticks that is not escaped opens a code span, and the span ends with the first run of as
many backticks that the search for it meets.  The search moves on by one character where it finds
too few of them, and behind one backtick more than it needs where it finds too many.  A run that
nothing closes opens nothing.

Main definitions:

* `Citations.CodeSpan.closing` — the search for the end of a span;
* `Citations.codeSpans` — the code spans of a line, each from its first character to behind its
  last.
-/

import Citations.Text.Scan

set_option relaxedAutoImplicit false
set_option autoImplicit false

namespace Citations

open Text

namespace CodeSpan

/-- The number of backticks at the start of a text. -/
def ticks (cs : List Char) : Nat := (cs.takeWhile (· = '`')).length

/-- The place of the first run of `n` backticks that ends a span, from place `pos` on, after `skip`
characters that are passed over. -/
def closing (n : Nat) : (skip pos : Nat) → List Char → Option Nat
  | _, _, [] => none
  | skip + 1, pos, _ :: cs => closing n skip (pos + 1) cs
  | 0, pos, c :: cs =>
      if ticks (c :: cs) < n then closing n 0 (pos + 1) cs
      else if ticks (c :: cs) = n then some pos
      else closing n n (pos + 1) cs

/-- Reads a run of backticks that is not escaped: as a span if something closes it, else as the run
alone. -/
def read : Reader Bool := fun prev cs =>
  match cs with
  | '`' :: _ =>
      if prev = some '\\' then none
      else
        let n := ticks cs
        match closing n 0 n (cs.drop n) with
        | some j => some (true, j + n)
        | none => some (false, n)
  | _ => none

end CodeSpan

/-- **The code spans of a line**, each from its first character to behind its last. -/
def codeSpans (line : List Char) : List (Nat × Nat) :=
  (findAll CodeSpan.read line).filterMap fun m => if m.value then some (m.start, m.stop) else none

/-- Whether a place lies inside one of the spans. -/
def inSpans (spans : List (Nat × Nat)) (pos : Nat) : Bool :=
  spans.any fun s => s.1 ≤ pos && pos < s.2

end Citations

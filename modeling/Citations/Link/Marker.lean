/-
**Extraction markers.**

Behind a link there may stand a directive for extraction, between `%%` and `%%` or inside an HTML
comment.  The first one that is complete counts, wherever it stands before the next link.

Main definitions:

* `Citations.Marker.percent?`, `Citations.Marker.comment?` — the two forms at the start of a text;
* `Citations.Marker.first?` — the first marker of a text.
-/

import Citations.Link.Basic
import Citations.Text.Blank
import Citations.Text.Scan

set_option relaxedAutoImplicit false
set_option autoImplicit false

namespace Citations

open Text

namespace Marker

/-- Whether, after white space if `spaced`, a text goes on with a delimiter. -/
def closesAt (spaced : Bool) (closing cs : List Char) : Bool :=
  closing.isPrefixOf (if spaced then trimStart cs else cs)

/-- The characters before the closing delimiter that comes first; they must lie on one line. -/
def untilClosing (spaced : Bool) (closing : List Char) : List Char → Option (List Char)
  | [] => none
  | c :: cs =>
      if closesAt spaced closing (c :: cs) then some []
      else if c = '\n' then none
      else (untilClosing spaced closing cs).map (c :: ·)

/-- At least one character, and then those before the closing delimiter that comes first. -/
def body (spaced : Bool) (closing : List Char) : List Char → Option (List Char)
  | [] => none
  | c :: cs => if c = '\n' then none else (untilClosing spaced closing cs).map (c :: ·)

/-- A directive between `%%` and `%%` at the start of a text. -/
def percent? : List Char → Option Marker
  | '%' :: '%' :: cs =>
      (body false ['%', '%'] cs).map fun inner =>
        ⟨String.ofList ('%' :: '%' :: inner ++ ['%', '%']), String.ofList (trim inner)⟩
  | _ => none

/-- The body of a comment, and how much white space comes before it.  The body may begin behind all
of the white space or, where that does not work, at any earlier place; `skipped` is the white space
before `cs`, last character first. -/
def commentBody : (skipped cs : List Char) → Option (Nat × List Char)
  | [], cs => (body true ['-', '-', '>'] cs).map (0, ·)
  | b :: skipped, cs =>
      match body true ['-', '-', '>'] cs with
      | some inner => some (skipped.length + 1, inner)
      | none => commentBody skipped (b :: cs)

/-- A directive in a comment at the start of a text, between the delimiters and white space. -/
def comment? : List Char → Option Marker
  | '<' :: '!' :: '-' :: '-' :: cs =>
      (commentBody (cs.takeWhile isBlank).reverse (trimStart cs)).map fun (skipped, inner) =>
        -- the white space before the closing delimiter belongs to the marker but not to its body
        let stop := skipped + inner.length
        let gap := ((cs.drop stop).takeWhile isBlank).length
        ⟨String.ofList ("<!--".toList ++ cs.take (stop + gap) ++ "-->".toList),
          String.ofList (trim inner)⟩
  | _ => none

/-- Reads a marker of either form. -/
def read : Reader Marker := fun _ cs =>
  ((percent? cs).orElse fun _ => comment? cs).map fun m => (m, m.fullMatch.length)

/-- **The first marker of a text.** -/
def first? (cs : List Char) : Option Marker := (find? read cs).map Found.value

end Marker

end Citations

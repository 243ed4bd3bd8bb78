/-
**Link destinations.**

The destination of a link stands in parentheses, which may be nested and escaped.  It is a path and
an anchor with a `#` between them, perhaps in angle brackets, perhaps with a quoted title behind it.

Main definitions:

* `Citations.Destination.closingFrom`, `Citations.closingParen` — the parenthesis that closes the
  first one;
* `Citations.Destination.split` — the path and the anchor of a destination;
* `Citations.Destination.isExternal` — whether a path is an address outside the file system.

Main results:

* `Citations.Destination.le_closingFrom` — the closing parenthesis does not lie before the opening
  one.
-/

import Citations.Text.Blank

set_option relaxedAutoImplicit false
set_option autoImplicit false

namespace Citations

open Text

namespace Destination

/-! ### Parentheses -/

/-- The place, counted from `pos`, of the closing parenthesis that brings the depth to zero.  A
backslash takes the character after it out of the count. -/
def closingFrom : (depth : Int) → (pos : Nat) → List Char → Option Nat
  | _, _, [] => none
  | _, _, ['\\'] => none
  | depth, pos, '\\' :: _ :: cs => closingFrom depth (pos + 2) cs
  | depth, pos, c :: cs =>
      if c = '(' then closingFrom (depth + 1) (pos + 1) cs
      else if c = ')' then
        if depth - 1 = 0 then some pos else closingFrom (depth - 1) (pos + 1) cs
      else closingFrom depth (pos + 1) cs

theorem le_closingFrom {depth : Int} {pos j : Nat} {cs : List Char}
    (h : closingFrom depth pos cs = some j) : pos ≤ j := by
  fun_induction closingFrom depth pos cs with
  | case1 => cases h
  | case2 => cases h
  | case3 depth pos c cs ih => have := ih h; omega
  | case4 depth pos cs _ _ ih => have := ih h; omega
  | case5 depth pos cs _ _ _ _ => simp only [Option.some.injEq] at h; omega
  | case6 depth pos cs _ _ _ _ ih => have := ih h; omega
  | case7 depth pos c cs _ _ _ _ ih => have := ih h; omega

end Destination

/-- **The place of the parenthesis that closes the one at `start`**, if there is one. -/
def closingParen (line : List Char) (start : Nat) : Option Nat :=
  Destination.closingFrom 0 start (line.drop start)

/-- **The place of the closing parenthesis for a start that is counted back from the end of the
line**, if the line is as long as that.  The search starts near the end and goes on at the start of
the line; a place that is found before the end is reached counts back as well. -/
def closingParenBack? (line : List Char) (back : Nat) : Option (Option Int) :=
  if line.length < back then none
  else
    some ((Destination.closingFrom 0 0 (line.drop (line.length - back) ++ line)).map fun n =>
      (n : Int) - back)

namespace Destination

/-! ### Titles -/

/-- Whether a text is a quoted title: between two double or two single quotes, and without that
quote inside. -/
def isTitle (cs : List Char) : Bool :=
  match cs with
  | q :: rest => (q == '"' || q == '\'') && rest.getLast? == some q && !rest.dropLast.contains q
  | [] => false

/-- The part of a destination before a title, which white space separates from it; the part must
lie on one line. -/
def beforeTitle : List Char → Option (List Char)
  | [] => none
  | c :: cs =>
      if isBlank c && isTitle (trimStart cs) then some []
      else if c = '\n' then none
      else (beforeTitle cs).map (c :: ·)

/-! ### Path and anchor -/

/-- A text cut at its first `#`. -/
def cutAtHash (cs : List Char) : List Char × Option (List Char) :=
  match cs.dropWhile (· ≠ '#') with
  | [] => (cs, none)
  | _ :: anchor => (cs.takeWhile (· ≠ '#'), some anchor)

/-- A destination without the angle brackets around it or the title behind it. -/
def bare (cs : List Char) : List Char :=
  let cs := trim cs
  if cs.head? = some '<' ∧ cs.getLast? = some '>' then cs.tail.dropLast
  else (beforeTitle cs).getD cs

/-- The path and the anchor of a destination; a destination that starts with `#` has no path. -/
def split (destination : List Char) : Option (List Char) × Option (List Char) :=
  match bare destination with
  | '#' :: anchor => (none, some anchor)
  | cs => ((cutAtHash cs).1, (cutAtHash cs).2)

/-! ### Addresses -/

/-- The letters of ASCII. -/
def isLetter (c : Char) : Bool := c.isAlpha

/-- What may follow the first letter of a scheme. -/
def isSchemeChar (c : Char) : Bool := c.isAlphanum || c == '+' || c == '.' || c == '-'

/-- Whether a path is an address outside the file system: it has a scheme or names a host. -/
def isExternal (path : List Char) : Bool :=
  match path with
  | '/' :: '/' :: _ => true
  | c :: cs => isLetter c && (cs.dropWhile isSchemeChar).head? == some ':'
  | [] => false

end Destination

end Citations

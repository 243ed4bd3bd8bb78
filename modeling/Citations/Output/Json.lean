/-
**JSON texts.**

Reports can be written as JSON, two spaces deeper on each level.  A text can keep its characters as
they are, except those that JSON does not allow, or it can be limited to ASCII.

Main definitions:

* `Citations.JsonValue` — what a report is made of;
* `Citations.JsonValue.escapeControl`, `Citations.JsonValue.escapeWide` — the two ways to write a
  character;
* `Citations.JsonValue.render` — the text of a value.
-/

import Citations.Text.Quoted

set_option relaxedAutoImplicit false
set_option autoImplicit false

namespace Citations

open Text

/-- What a report is made of.  Fields keep their order. -/
inductive JsonValue where
  | null
  | number (n : Int)
  /-- A number that is written with a decimal point. -/
  | decimal (written : String)
  | text (s : String)
  | list (items : List JsonValue)
  | record (fields : List (String × JsonValue))

namespace JsonValue

/-! ### Characters -/

/-- A character by the number of its sixteen-bit unit. -/
def unitEscape (n : Nat) : List Char := '\\' :: 'u' :: hex 4 n

/-- **A character as it is**, unless it is a control character, a quote or a backslash. -/
def escapeControl (c : Char) : List Char :=
  if c = '"' ∨ c = '\\' then ['\\', c]
  else if c = '\n' then ['\\', 'n']
  else if c = '\r' then ['\\', 'r']
  else if c = '\t' then ['\\', 't']
  else if c = '\x08' then ['\\', 'b']
  else if c = '\x0c' then ['\\', 'f']
  else if c.toNat < 0x20 then unitEscape c.toNat
  else [c]

/-- **A character in ASCII**: one outside is written by one or two sixteen-bit units. -/
def escapeWide (c : Char) : List Char :=
  if c.toNat < 0x7f then escapeControl c
  else if c.toNat < 0x10000 then unitEscape c.toNat
  else
    unitEscape (0xd800 + (c.toNat - 0x10000) / 0x400) ++
      unitEscape (0xdc00 + (c.toNat - 0x10000) % 0x400)

/-- A text in quotes. -/
def quoted (escape : Char → List Char) (s : String) : String :=
  String.ofList ('"' :: s.toList.flatMap escape ++ ['"'])

/-! ### Values -/

/-- A new line at a given level. -/
def newLine (depth : Nat) : String := String.ofList ('\n' :: List.replicate (2 * depth) ' ')

mutual

/-- **The text of a value** at a given level. -/
def render (escape : Char → List Char) (depth : Nat) : JsonValue → String
  | .null => "null"
  | .number n => toString n
  | .decimal written => written
  | .text s => quoted escape s
  | .list [] => "[]"
  | .list items => "[" ++ renderItems escape (depth + 1) items ++ newLine depth ++ "]"
  | .record [] => "\x7b\x7d"
  | .record fields => "\x7b" ++ renderFields escape (depth + 1) fields ++ newLine depth ++ "\x7d"

/-- The lines for the items of a list. -/
def renderItems (escape : Char → List Char) (depth : Nat) : List JsonValue → String
  | [] => ""
  | [v] => newLine depth ++ render escape depth v
  | v :: vs => newLine depth ++ render escape depth v ++ "," ++ renderItems escape depth vs

/-- The lines for the fields of a record. -/
def renderFields (escape : Char → List Char) (depth : Nat) :
    List (String × JsonValue) → String
  | [] => ""
  | [(name, v)] => newLine depth ++ quoted escape name ++ ": " ++ render escape depth v
  | (name, v) :: fields =>
      newLine depth ++ quoted escape name ++ ": " ++ render escape depth v ++ "," ++
        renderFields escape depth fields

end

/-- A text that may be absent. -/
def ofText? : Option String → JsonValue
  | none => .null
  | some s => .text s

/-- A number of things. -/
def ofNat (n : Nat) : JsonValue := .number n

end JsonValue

end Citations

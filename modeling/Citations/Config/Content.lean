/-
**Contents of a configuration file.**

Of YAML only what a list of settings needs is read: one entry after another, a scalar behind each
key.  A file can also hold a single scalar or a list, which is of no use as settings.  Everything
else is taken for malformed.

Main definitions:

* `Citations.Yaml.Content` — what a file holds;
* `Citations.Yaml.entry?` — the entry that a text starts with;
* `Citations.Yaml.read` — what a text holds.
-/

import Citations.Config.Scalar
import Citations.Text.Ranges

set_option relaxedAutoImplicit false
set_option autoImplicit false

namespace Citations.Yaml

open Text

/-- The kinds of things that a file can hold and that are no entries. -/
inductive Kind where
  | null
  | flag
  | integer
  | decimal
  | text
  | bytes
  | day
  | time
  | list
  | set
  deriving DecidableEq

/-- The name of a kind. -/
def Kind.name : Kind → String
  | .null => "NoneType"
  | .flag => "bool"
  | .integer => "int"
  | .decimal => "float"
  | .text => "str"
  | .bytes => "bytes"
  | .day => "datetime.date"
  | .time => "datetime.datetime"
  | .list => "list"
  | .set => "set"

/-- What a file holds. -/
inductive Content where
  | entries (es : List (Value × Value))
  /-- Something that is no entries, and whether it counts as nothing. -/
  | other (kind : Kind) (isVoid : Bool)

/-- What a file holds that holds a single value. -/
def Content.ofValue : Value → Content
  | .null => .other .null true
  | .flag b => .other .flag !b
  | .integer n => .other .integer (n == 0)
  | .decimal x => .other .decimal (x.toInt? == some 0)
  | .text s => .other .text (s == "")
  | .record fields => .entries (fields.map fun f => (.text f.1, f.2))
  | .day _ => .other .day false
  | .time _ => .other .time false
  | .other => .other .list false

/-! ### Lines -/

/-- Whether a character may stand in a file. -/
def isAllowed (c : Char) : Bool :=
  inRanges [(0x9, 0xa), (0xd, 0xd), (0x20, 0x7e), (0x85, 0x85), (0xa0, 0xd7ff), (0xe000, 0xfffd),
    (0x10000, 0x10ffff)] c.toNat

/-- A text from its first line on that holds more than spaces and a comment; `lines` bounds the
number of lines. -/
def skipLines : (lines : Nat) → List Char → List Char
  | 0, cs => cs
  | lines + 1, cs => if isTrailing cs && !cs.isEmpty then skipLines lines (dropLine cs) else cs

/-- A text from its first line on that holds more than spaces and a comment. -/
def skip (cs : List Char) : List Char := skipLines cs.length cs

/-- The indentation of a line. -/
def indentation (line : List Char) : Nat := (line.takeWhile (· = ' ')).length

/-- The fault of a text that goes on where it should not, perhaps behind a mark for its end: that of
the scalar with which it goes on, if it has one. -/
def excess (cs : List Char) : Fault :=
  let cs := if hasMark "..." cs then skip (dropLine cs) else cs
  match scalar 0 (cs.dropWhile (· = ' ')) with
  | .error e => e
  | .ok _ => .malformed

/-! ### Entries -/

/-- How far behind the start of a key its colon may stand. -/
def maxKeyLength : Nat := 1024

/-- The key that a line starts with, and what is behind its colon; a key ends on the line where it
starts. -/
def key? (line : List Char) : Except Fault (Option (Scalar × List Char)) := do
  let first := line.takeWhile fun c => !isBreak c
  match scalar 0 first with
  | .error .malformed => return none
  | .error e => throw e
  | .ok (key, rest) =>
      match rest.dropWhile (· = ' ') with
      | ':' :: behind =>
          if atGap behind && first.length - behind.length ≤ maxKeyLength + 1 then
            return some (key, line.drop (first.length - behind.length))
          else return none
      | _ => return none

/-- The value behind the colon of a key that is indented by `indent`, and the rest of the text from
the next line on.  A value can stand on a line of its own that is indented further. -/
def valueBehind (indent : Nat) (cs : List Char) : Except Fault (Scalar × List Char) := do
  let start :=
    if isTrailing cs then
      let below := skip cs
      if below.isEmpty || isMark below || indentation below ≤ indent then none
      else some (below.dropWhile (· = ' '))
    else some (cs.dropWhile (· = ' '))
  match start with
  | none => return (.plain [], dropLine cs)
  | some start =>
      let (value, rest) ← scalar (indent + 1) start
      if isTrailing rest then return (value, dropLine rest) else throw (excess rest)

/-- **The entry that a text starts with**, if it starts with one, and the rest of the text from the
next line on. -/
def entry? (cs : List Char) : Except Fault (Option ((Scalar × Scalar) × List Char)) := do
  let indent := indentation cs
  match ← key? (cs.drop indent) with
  | none => return none
  | some (key, behind) =>
      let (value, rest) ← valueBehind indent behind
      return some ((key, value), rest)

/-- Whether nothing is left but marks for the end of the file; `lines` bounds the number of
lines. -/
def isOver : (lines : Nat) → List Char → Bool
  | 0, cs => cs.isEmpty
  | lines + 1, cs =>
      let cs := skip cs
      cs.isEmpty || (hasMark "..." cs && isTrailing (cs.drop 3) && isOver lines (dropLine cs))

/-- The entries of a text up to its end, all at the same indentation; `count` bounds their
number. -/
def entries (indent : Nat) : (count : Nat) → List Char → Except Fault (List (Scalar × Scalar))
  | 0, _ => .ok []
  | count + 1, cs => do
      let cs := skip cs
      if isOver cs.length cs then return []
      else if hasMark "---" cs then throw .malformed
      else if hasMark "..." cs || indentation cs ≠ indent then throw (excess cs)
      else
        match ← entry? cs with
        | none => throw (excess cs)
        | some (e, rest) => return e :: (← entries indent count rest)

/-- The values of entries, in order.  The merge key does not go with scalars. -/
def evaluate (es : List (Scalar × Scalar)) : Except Fault Content := do
  let isMerge : Scalar × Scalar → Bool
    | (.plain ['<', '<'], _) => true
    | _ => false
  if es.any isMerge then throw .malformed
  return .entries (← es.mapM fun e => do return (← e.1.key, ← e.2.value))

/-! ### Files -/

/-- Whether a line is an item of a list. -/
def isItem (line : List Char) : Bool :=
  match line.dropWhile (· = ' ') with
  | '-' :: rest => atGap rest
  | _ => false

/-- What a text holds that does not hold entries: a scalar, or a list. -/
def single (cs : List Char) : Except Fault Content := do
  if isItem cs then return .other .list false
  let (s, rest) ← scalar 0 (cs.dropWhile (· = ' '))
  if !isTrailing rest then throw (excess rest)
  else if isOver rest.length (dropLine rest) then return .ofValue (← s.value)
  else throw (excess (skip (dropLine rest)))

/-- What the lines of a file hold behind the mark for its start, if there is one. -/
def body (cs : List Char) : Except Fault Content := do
  let cs := skip cs
  if isOver cs.length cs then return .other .null true
  else if isMark cs then throw .malformed
  else
    match ← entry? cs with
    | none => single cs
    | some _ => evaluate (← entries (indentation cs) cs.length cs)

/-- **What a text holds**, if it is well formed and its scalars have values.  Behind the mark for the
start of a file a scalar can stand on the same line. -/
def read (cs : List Char) : Except Fault Content :=
  let cs := match cs with
    | '\ufeff' :: rest => rest
    | _ => cs
  if !cs.all isAllowed then .error .malformed
  else
    let cs := skip cs
    if hasMark "---" cs then
      let behind := cs.drop 3
      if isTrailing behind then body (dropLine behind) else single (behind.dropWhile (· = ' '))
    else if hasMark "..." cs then .error .malformed
    else body cs

end Citations.Yaml

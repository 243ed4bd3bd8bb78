/-
**Scalars of a configuration file.**

A scalar is written in single or double quotes, which makes it a text, or plainly.  It may go on
over several lines: a line break inside it counts as a space, and of several breaks in a row all but
the first stay.  A plain scalar goes on only over lines that are indented far enough, and a comment
ends it.

Main definitions:

* `Citations.Yaml.Space` — the white space between two parts of a scalar;
* `Citations.Yaml.singleQuoted`, `Citations.Yaml.doubleQuoted`, `Citations.Yaml.plain` — the scalar
  that a text starts with, without its opening quote, and the rest of the text;
* `Citations.Yaml.Scalar` — a scalar as it is written;
* `Citations.Yaml.scalar` — the scalar that a text starts with, and the rest of the text.
-/

import Citations.Config.Plain

set_option relaxedAutoImplicit false
set_option autoImplicit false

namespace Citations.Yaml

open Text

/-! ### Lines -/

/-- Whether a character separates scalars on a line. -/
def isGap (c : Char) : Bool := c == ' ' || c == '\t'

/-- The characters that end a line. -/
def isBreak (c : Char) : Bool := c == '\n' || c == '\u0085' || c == '\u2028' || c == '\u2029'

/-- Whether a line ends here, or goes on with a gap. -/
def atGap (cs : List Char) : Bool := cs.head?.all fun c => isGap c || isBreak c

/-- Whether what is left of the line is nothing but spaces and a comment. -/
def isTrailing (cs : List Char) : Bool :=
  (cs.dropWhile (· = ' ')).head?.all fun c => c == '#' || isBreak c

/-- What is behind the current line. -/
def dropLine (cs : List Char) : List Char := (cs.dropWhile fun c => !isBreak c).tail

/-- Whether a line starts with the given three characters, which mark the start or the end of a
file. -/
def hasMark (mark : String) (line : List Char) : Bool :=
  mark.toList.isPrefixOf line && atGap (line.drop 3)

/-- Whether a line starts or ends a file. -/
def isMark (line : List Char) : Bool := hasMark "---" line || hasMark "..." line

/-! ### White space inside a scalar -/

/-- The white space between two parts of a scalar: what stands on one line, or else line breaks.  The
first break may be one that does not count. -/
inductive Space where
  | gap (blanks : List Char)
  | fold (first : Option Char) (others : List Char)

namespace Space

/-- No white space. -/
def none : Space := .gap []

/-- A line break as it counts inside a scalar. -/
def breakOf (c : Char) : Char := if c = '\u0085' then '\n' else c

/-- White space with a blank behind it, which does not count behind a line break. -/
def addBlank (c : Char) : Space → Space
  | .gap blanks => .gap (blanks ++ [c])
  | .fold first others => .fold first others

/-- White space with a line break behind it; blanks before it do not count. -/
def addBreak (c : Char) : Space → Space
  | .gap _ => .fold (some (breakOf c)) []
  | .fold first others => .fold first (others ++ [breakOf c])

/-- What white space stands for. -/
def text : Space → List Char
  | .gap blanks => blanks
  | .fold (some '\n') [] => [' ']
  | .fold (some '\n') others => others
  | .fold first others => first.toList ++ others

end Space

/-- What was read of a scalar, and the rest of the text. -/
abbrev Part := List Char × List Char

/-- Puts something in front of what was read. -/
def Part.behind (cs : List Char) (p : Part) : Part := (cs ++ p.1, p.2)

/-! ### Scalars in quotes -/

/-- The text inside single quotes, in which a quote is written twice; `s` is the white space
before. -/
def singleQuoted (s : Space) : List Char → Except Fault Part
  | [] => .error .malformed
  | '\'' :: '\'' :: cs => (singleQuoted .none cs).map (.behind (s.text ++ ['\'']))
  | '\'' :: cs => .ok (s.text, cs)
  | c :: cs =>
      if isGap c then singleQuoted (s.addBlank c) cs
      else if isBreak c then
        if isMark cs then .error .malformed else singleQuoted (s.addBreak c) cs
      else (singleQuoted .none cs).map (.behind (s.text ++ [c]))

/-- The character that a backslash and a letter stand for. -/
def escape? (c : Char) : Option Char :=
  (("0abt\tnvfre \"\\/N_LP".toList.zip
    ['\x00', '\x07', '\x08', '\t', '\t', '\n', '\x0b', '\x0c', '\r', '\x1b', ' ', '"', '\\', '/',
      '\u0085', '\u00a0', '\u2028', '\u2029']).find? fun p => p.1 = c).map Prod.snd

/-- The character of a given hexadecimal number. -/
def numbered (ds : List Char) : Except Fault Char :=
  if !ds.all fun c => (hexValue? c).isSome then .error .malformed
  else if based 16 ds < 0x110000 then .ok (Char.ofNat (based 16 ds))
  else if based 16 ds < 0x80000000 then .error .noCharacter
  else .error .wideEscape

/-- Puts white space and a character, if there is one, in front of the part that `rest` reads. -/
def escaped (s : Space) (c : Except Fault Char) (rest : Except Fault Part) : Except Fault Part := do
  let c ← c
  return (← rest).behind (s.text ++ [c])

/-- The text inside double quotes, in which a backslash starts an escape; `s` is the white space
before.  A backslash at the end of a line joins the line to the next one. -/
def doubleQuoted (s : Space) : List Char → Except Fault Part
  | [] => .error .malformed
  | '"' :: cs => .ok (s.text, cs)
  | '\\' :: 'x' :: a :: b :: cs => escaped s (numbered [a, b]) (doubleQuoted .none cs)
  | '\\' :: 'u' :: a :: b :: c :: d :: cs =>
      escaped s (numbered [a, b, c, d]) (doubleQuoted .none cs)
  | '\\' :: 'U' :: a :: b :: c :: d :: e :: f :: g :: h :: cs =>
      escaped s (numbered [a, b, c, d, e, f, g, h]) (doubleQuoted .none cs)
  | '\\' :: c :: cs =>
      if isBreak c then
        if isMark cs then .error .malformed
        else (doubleQuoted (.fold .none []) cs).map (.behind s.text)
      else
        match escape? c with
        | some e => (doubleQuoted .none cs).map (.behind (s.text ++ [e]))
        | .none => .error .malformed
  | c :: cs =>
      if isGap c then doubleQuoted (s.addBlank c) cs
      else if isBreak c then
        if isMark cs then .error .malformed else doubleQuoted (s.addBreak c) cs
      else (doubleQuoted .none cs).map (.behind (s.text ++ [c]))

/-! ### Plain scalars -/

/-- Whether a plain scalar can start here. -/
def startsPlain : List Char → Bool
  | [] => false
  | c :: cs =>
      if "-?:".toList.contains c then !atGap cs
      else !isGap c && !isBreak c && !",[]\x7b\x7d#&*!|>'\"%@`".toList.contains c

/-- Whether a plain scalar ends on its line: with the mark behind a key, with a tab, or with a
comment that a blank precedes. -/
def endsPlain (blanks : List Char) (c : Char) (cs : List Char) : Bool :=
  c == '\t' || (c == ':' && atGap cs) || (c == '#' && !blanks.isEmpty)

/-- **The plain scalar that a text starts with**, and the rest of the text.  The scalar goes on over
lines that are indented by `indent` or more.  `s` is the white space before, `column` the
indentation of the current line so far, and `ended` the rest of the text if the scalar has ended
with the line before. -/
def plain (indent : Nat) : (s : Space) → (column : Nat) → (ended : List Char) → List Char → Part
  | _, _, _, [] => ([], [])
  | .gap blanks, _, _, c :: cs =>
      if isBreak c then
        if isMark cs then ([], c :: cs)
        else plain indent ((Space.gap blanks).addBreak c) 0 (c :: cs) cs
      else if c = ' ' then plain indent (.gap (blanks ++ [c])) 0 [] cs
      else if endsPlain blanks c cs then ([], blanks ++ c :: cs)
      else (plain indent .none 0 [] cs).behind (blanks ++ [c])
  | .fold first others, column, ended, c :: cs =>
      if c = ' ' then plain indent (.fold first others) (column + 1) ended cs
      else if isBreak c then
        if isMark cs then ([], ended)
        else plain indent ((Space.fold first others).addBreak c) 0 ended cs
      else if column < indent || endsPlain [' '] c cs then ([], ended)
      else (plain indent .none 0 [] cs).behind ((Space.fold first others).text ++ [c])

/-! ### All scalars -/

/-- A scalar as it is written.  Of a list or a map in brackets only matters whether there is anything
in it. -/
inductive Scalar where
  | quoted (s : String)
  | plain (cs : List Char)
  | brackets (isEmpty : Bool)

/-- What is left of a text behind a list or a map in brackets; `depth` brackets are open. -/
def behindBrackets (depth : Nat) : List Char → Except Fault (List Char)
  | [] => .error .malformed
  | c :: cs =>
      if c = '[' ∨ c = '\x7b' then behindBrackets (depth + 1) cs
      else if c = ']' ∨ c = '\x7d' then
        if depth ≤ 1 then .ok cs else behindBrackets (depth - 1) cs
      else behindBrackets depth cs

/-- Whether the bracket behind an opening one closes it. -/
def closesAtOnce (bracket : Char) (cs : List Char) : Bool :=
  (cs.dropWhile fun c => c == ' ' || isBreak c).head? == some (if bracket = '[' then ']' else '\x7d')

/-- **The scalar that a text starts with**, and the rest of the text.  A plain scalar goes on over
lines that are indented by `indent` or more. -/
def scalar (indent : Nat) (cs : List Char) : Except Fault (Scalar × List Char) :=
  match cs with
  | '"' :: rest => (doubleQuoted .none rest).map fun p => (.quoted (String.ofList p.1), p.2)
  | '\'' :: rest => (singleQuoted .none rest).map fun p => (.quoted (String.ofList p.1), p.2)
  | c :: rest =>
      if c = '[' ∨ c = '\x7b' then
        (behindBrackets 0 cs).map fun behind => (.brackets (closesAtOnce c rest), behind)
      else if startsPlain cs then
        let p := plain indent .none 0 [] cs
        .ok (.plain p.1, p.2)
      else .error .malformed
  | [] => .error .malformed

namespace Scalar

/-- The value of a scalar.  A list or a map with something in it has a value that fits no field. -/
def value : Scalar → Except Fault Value
  | .quoted s => .ok (.text s)
  | .plain cs => plainValue cs
  | .brackets isEmpty => .ok (if isEmpty then .record [] else .other)

/-- The value of a scalar that is a key, which a list or a map cannot be. -/
def key : Scalar → Except Fault Value
  | .quoted s => .ok (.text s)
  | .plain ['='] => .ok (.text "=")
  | .plain cs => plainValue cs
  | .brackets _ => .error .malformed

end Scalar

end Citations.Yaml

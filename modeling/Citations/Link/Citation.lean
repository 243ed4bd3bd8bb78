/-
**Citations on a line.**

Four kinds of citation are read on a line, each by a reader of its own: Markdown links, wiki links,
cite tags and carets.  The kinds are tried in this order.  A citation does not count if it starts
inside a code span or inside a citation of a kind that was tried before.

Main definitions:

* `Citations.Citation` — a citation with its place on the line;
* `Citations.Citation.markdown`, `Citations.Citation.wiki`, `Citations.Citation.cite`,
  `Citations.Citation.caret` — the four readers;
* `Citations.Citation.ofKind` — the citations of one kind outside the given spans;
* `Citations.citations` — all citations of a line, from left to right.

Main results:

* `Citations.Citation.start_notMem_of_mem_ofKind` — no citation starts inside a span to be avoided.
-/

import Citations.Link.CodeSpan
import Citations.Link.Destination
import Citations.Link.Basic
import Citations.Text.Digit
import Citations.Text.Word

set_option relaxedAutoImplicit false
set_option autoImplicit false

namespace Citations

open Text

/-- A citation with its place on the line: the path, the anchor and the text it is written with. -/
structure Citation where
  kind : LinkKind
  path : Option String
  anchor : Option String
  text : Option String
  start : Nat
  stop : Nat

/-- The place of a citation, from its first character to behind its last. -/
def Citation.span (c : Citation) : Nat × Nat := (c.start, c.stop)

namespace Citation

/-- What a reader makes of a citation: its parts and how many characters it takes.  A reader may
consume less than that, or consume what turns out to be no citation. -/
structure Body where
  path : Option String
  anchor : Option String
  text : Option String
  length : Nat

/-- Reads a citation, or a piece of text that looks like the start of one. -/
abbrev BodyReader := Reader (Option Body)

/-- A square bracket. -/
def isBracket (c : Char) : Bool := c == '[' || c == ']'

/-! ### Markdown links -/

/-- The link with the given text whose destination is the start of `tail`, with its parentheses.
It is no citation if the parentheses are not closed, or if it names an address or nothing. -/
def markdownBody (text tail : List Char) : Option Body :=
  match closingParen tail 0 with
  | none => none
  | some close =>
      let (path, anchor) := Destination.split (slice tail 1 close)
      if path.any fun p => p.isEmpty || Destination.isExternal p then none
      else some ⟨path.map String.ofList, anchor.map String.ofList, some (String.ofList text),
        text.length + 2 + close + 1⟩

/-- Reads `[text](` that is not preceded by an exclamation mark or a bracket, and looks ahead for
the destination. -/
def markdown : BodyReader := fun prev cs =>
  match cs with
  | '[' :: rest =>
      if prev = some '!' ∨ prev = some '[' then none
      else
        let text := rest.takeWhile (!isBracket ·)
        match rest.dropWhile (!isBracket ·) with
        | ']' :: '(' :: tail => some (markdownBody text ('(' :: tail), text.length + 3)
        | _ => none
  | _ => none

/-! ### Wiki links -/

/-- The characters that end the path of a wiki link. -/
def isWikiDelimiter (c : Char) : Bool := isBracket c || c == '|' || c == '#'

/-- The path at the start of a wiki link: nothing, or a name that ends in `.md`. -/
def wikiPath (cs : List Char) : Option (Option (List Char) × List Char) :=
  let path := cs.takeWhile (!isWikiDelimiter ·)
  let rest := cs.dropWhile (!isWikiDelimiter ·)
  if path.isEmpty then some (none, rest)
  else if ".md".toList.isSuffixOf path then some (some path, rest)
  else none

/-- A part that a mark introduces: absent without the mark, and not empty with it. -/
def markedPart (mark : Char) (ends : Char → Bool) (cs : List Char) :
    Option (Option (List Char) × List Char) :=
  match cs with
  | c :: rest =>
      if c = mark then
        let part := rest.takeWhile (!ends ·)
        if part.isEmpty then none else some (some part, rest.dropWhile (!ends ·))
      else some (none, cs)
  | [] => some (none, cs)

/-- Reads `[[path#anchor|text]]`, in which each part may be missing; without path and anchor it is
no citation. -/
def wiki : BodyReader := fun _ cs =>
  match cs with
  | '[' :: '[' :: inner => do
      let (path, rest) ← wikiPath inner
      let (anchor, rest) ← markedPart '#' (fun c => isBracket c || c == '|') rest
      let (text, rest) ← markedPart '|' isBracket rest
      match rest with
      | ']' :: ']' :: after =>
          -- an empty pair of brackets is consumed as well, so that nothing is found inside it
          let length := cs.length - after.length
          let body : Body := ⟨path.map String.ofList, anchor.map String.ofList,
            text.map String.ofList, length⟩
          some (if path.isNone && anchor.isNone then none else some body, length)
      | _ => none
  | _ => none

/-! ### Cite tags -/

/-- Reads `[cite: path#anchor]`. -/
def cite : BodyReader := fun _ cs =>
  if "[cite:".toList.isPrefixOf cs then
    let inner := (cs.drop 6).takeWhile (· ≠ ']')
    if inner.isEmpty || inner.length + 6 == cs.length then none
    else
      let target := trim inner
      let (path, anchor) := Destination.cutAtHash target
      let path := trim path
      let length := inner.length + 7
      some (some ⟨if path.isEmpty then none else some (String.ofList path),
        anchor.map String.ofList, some (String.ofList ("cite: ".toList ++ target)), length⟩, length)
  else none

/-! ### Carets -/

/-- A character of an anchor name behind a caret. -/
def isAnchorChar (c : Char) : Bool := c.isAlphanum || c == '_' || c == '-'

/-- Whether a caret may stand behind this character: not inside a word, a path or a bracket. -/
def admitsCaret (prev : Option Char) : Bool :=
  !(prev.any fun c => isWord c || c == '#' || c == '^' || c == '[' || c == '/')

/-- Whether a name is a number, or the start of a version such as `14.0.1`, given what follows. -/
def isFalseCaret (name after : List Char) : Bool :=
  name.all Char.isDigit ||
    match after with
    | '.' :: d :: _ => isDecimal d
    | _ => false

/-- The name behind a caret: it starts with a letter or a digit. -/
def caretName : List Char → Option (List Char)
  | '^' :: c :: cs => if c.isAlphanum then some (c :: cs.takeWhile isAnchorChar) else none
  | _ => none

/-- Reads `^name`; numbers and versions are no citations. -/
def caret : BodyReader := fun prev cs =>
  if admitsCaret prev then
    (caretName cs).map fun name =>
      let length := name.length + 1
      (if isFalseCaret name (cs.drop length) then none
        else some ⟨none, some (String.ofList name), none, length⟩, length)
  else none

/-! ### All citations of a line -/

/-- The reader of each kind of citation, in the order in which they are tried. -/
def readers : List (LinkKind × BodyReader) :=
  [(.markdown, markdown), (.wiki, wiki), (.cite, cite), (.caret, caret)]

/-- The citations of one kind that do not start inside one of the spans. -/
def ofKind (kind : LinkKind) (read : BodyReader) (avoid : List (Nat × Nat)) (line : List Char) :
    List Citation :=
  (findAll read line).filterMap fun m =>
    if inSpans avoid m.start then none
    else m.value.map fun b =>
      ⟨kind, b.path, b.anchor, b.text, m.start, m.start + b.length⟩

/-- No citation starts inside a span to be avoided. -/
theorem start_notMem_of_mem_ofKind {kind : LinkKind} {read : BodyReader}
    {avoid : List (Nat × Nat)} {line : List Char} {c : Citation}
    (h : c ∈ ofKind kind read avoid line) : inSpans avoid c.start = false := by
  obtain ⟨m, _, hm⟩ := List.mem_filterMap.1 h
  by_cases hs : inSpans avoid m.start = true
  · simp [hs] at hm
  · simp only [hs, Bool.false_eq_true, if_false] at hm
    obtain ⟨b, _, rfl⟩ := Option.map_eq_some_iff.1 hm
    exact Bool.eq_false_iff.2 hs

/-- The citations that the given readers find in turn, each avoiding the spans of those before. -/
def collect (line : List Char) : List (LinkKind × BodyReader) → List (Nat × Nat) → List Citation
  | [], _ => []
  | (kind, read) :: rest, avoid =>
      let found := ofKind kind read avoid line
      found ++ collect line rest (avoid ++ found.map span)

end Citation

/-- **The citations of a line**, from left to right. -/
def citations (line : List Char) : List Citation :=
  (Citation.collect line Citation.readers (codeSpans line)).mergeSort fun a b => a.start ≤ b.start

end Citations

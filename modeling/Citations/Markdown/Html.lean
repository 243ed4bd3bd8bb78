/-
**HTML blocks.**

A line that starts with certain pieces of HTML starts a block of HTML, and the kind of piece says
where the block ends: with a closing piece, or with an empty line.  The letters of ASCII in element
names count without regard to case.

Main definitions:

* `Citations.Markdown.Html.Kind` — the kinds of HTML block;
* `Citations.Markdown.Html.opening` — the kind of block that a line starts;
* `Citations.Markdown.Html.Kind.endsIn` — whether a line ends a block;
* `Citations.Markdown.Html.Tag` — the states of reading a single tag.
-/

import Citations.Text.Blank

set_option relaxedAutoImplicit false
set_option autoImplicit false

namespace Citations.Markdown.Html

open Text

/-! ### Names -/

/-- The rest of a text behind a name. -/
def behindName (name : String) (cs : List Char) : Option (List Char) :=
  let n := name.toList.length
  if (cs.take n).map Char.toLower = name.toList then some (cs.drop n) else none

/-- Whether a text holds a piece anywhere, without regard to case. -/
def holds (piece : List Char) : List Char → Bool
  | [] => piece.isEmpty
  | c :: cs => ((c :: cs).take piece.length).map Char.toLower == piece || holds piece cs

/-- The elements whose content is kept as it is. -/
def rawElements : List String := ["script", "pre", "style", "textarea"]

/-- The elements that start a block. -/
def blockElements : List String :=
  ["address", "article", "aside", "base", "basefont", "blockquote", "body", "caption", "center",
   "col", "colgroup", "dd", "details", "dialog", "dir", "div", "dl", "dt", "fieldset",
   "figcaption", "figure", "footer", "form", "frame", "frameset", "h1", "h2", "h3", "h4", "h5",
   "h6", "head", "header", "hr", "html", "iframe", "legend", "li", "link", "main", "menu",
   "menuitem", "nav", "noframes", "ol", "optgroup", "option", "p", "param", "search", "section",
   "summary", "table", "tbody", "td", "tfoot", "th", "thead", "title", "tr", "track", "ul"]

/-! ### A single tag -/

/-- The states of reading a tag behind its angle bracket, one character at a time. -/
inductive Tag where
  /-- Behind the angle bracket. -/
  | opened
  /-- In the name of an opening tag. -/
  | name
  /-- Behind white space, where an attribute may start. -/
  | between
  /-- In the name of an attribute. -/
  | attribute
  /-- Behind white space that follows the name of an attribute. -/
  | named
  /-- Behind an equals sign. -/
  | value
  /-- In a value without quotes. -/
  | bare
  /-- In a value with quotes. -/
  | quoted (mark : Char)
  /-- Behind the closing quote of a value. -/
  | valued
  /-- Behind the slash that ends an opening tag. -/
  | slash
  /-- Behind the slash that starts a closing tag. -/
  | closing
  /-- In the name of a closing tag. -/
  | closingName
  /-- Behind white space in a closing tag. -/
  | closingGap
  /-- Behind the tag, where only white space may follow. -/
  | done
  deriving DecidableEq

/-- What may start the name of an attribute. -/
def startsAttribute (c : Char) : Bool := c.isAlpha || c == '_' || c == ':'

/-- What may follow in the name of an attribute. -/
def inAttribute (c : Char) : Bool :=
  c.isAlphanum || c == ':' || c == '.' || c == '_' || c == '-'

/-- What may stand in a value without quotes. -/
def inBare (c : Char) : Bool :=
  0x20 < c.toNat && !"\"'=<>`".toList.contains c

/-- The states that may follow where the tag may end or go on with an attribute. -/
def Tag.afterPart (c : Char) (spaced : Tag) : List Tag :=
  if isBlank c then [spaced] else if c = '/' then [.slash] else if c = '>' then [.done] else []

/-- The states that one character leads to.  Some white space may also belong to a value without
quotes, and so may a slash. -/
def Tag.next (t : Tag) (c : Char) : List Tag :=
  match t with
  | .opened => if c.isAlpha then [.name] else if c = '/' then [.closing] else []
  | .name => if c.isAlphanum || c == '-' then [.name] else afterPart c .between
  | .between => if startsAttribute c then [.attribute] else afterPart c .between
  | .attribute =>
      if inAttribute c then [.attribute] else if c = '=' then [.value] else afterPart c .named
  | .named =>
      if startsAttribute c then [.attribute]
      else if c = '=' then [.value]
      else afterPart c .named
  | .value =>
      if c = '"' ∨ c = '\'' then [.quoted c]
      else (if isBlank c then [.value] else []) ++ (if inBare c then [.bare] else [])
  | .bare => (if inBare c then [.bare] else []) ++ afterPart c .between
  | .quoted mark => if c = mark then [.valued] else [.quoted mark]
  | .valued => afterPart c .between
  | .slash => if c = '>' then [.done] else []
  | .closing => if c.isAlpha then [.closingName] else []
  | .closingName =>
      if c.isAlphanum || c == '-' then [.closingName]
      else if isBlank c then [.closingGap]
      else if c = '>' then [.done]
      else []
  | .closingGap => if isBlank c then [.closingGap] else if c = '>' then [.done] else []
  | .done => if isBlank c then [.done] else []

/-- Whether a text behind an angle bracket is a whole tag and nothing else. -/
def isTag (cs : List Char) : Bool :=
  (cs.foldl (fun ts c => (ts.flatMap (·.next c)).eraseDups) [Tag.opened]).contains .done

/-! ### Blocks -/

/-- The kinds of HTML block. -/
inductive Kind where
  /-- An element whose content is kept as it is. -/
  | raw
  | comment
  | instruction
  | declaration
  | cdata
  /-- An element that starts a block. -/
  | element
  /-- Any other tag that stands alone on its line. -/
  | tag
  deriving DecidableEq

/-- White space that ends the name of an element: that of ASCII. -/
def isNameEnd (c : Char) : Bool := c == ' ' || (0x9 ≤ c.toNat && c.toNat ≤ 0xd)

/-- Whether an element name may end here. -/
def endsRawName (cs : List Char) : Bool := cs.head?.all fun c => isNameEnd c || c == '>'

/-- Whether an element name may end here, a slash before the closing bracket included. -/
def endsName (cs : List Char) : Bool :=
  endsRawName cs || (cs.head? == some '/' && cs.tail.head? == some '>')

/-- Whether a text starts with the name of one of the elements. -/
def startsElement (names : List String) (ends : List Char → Bool) (cs : List Char) : Bool :=
  names.any fun name => (behindName name cs).any ends

/-- **The kind of block that a line starts.** -/
def opening (cs : List Char) : Option Kind :=
  match cs with
  | '<' :: rest =>
      if startsElement rawElements endsRawName rest then some .raw
      else if "!--".toList.isPrefixOf rest then some .comment
      else if rest.head? = some '?' then some .instruction
      else if rest.head? = some '!' ∧ rest.tail.head?.any Char.isAlpha then some .declaration
      else if "![CDATA[".toList.isPrefixOf rest then some .cdata
      else if startsElement blockElements endsName
          (if rest.head? = some '/' then rest.tail else rest) then some .element
      else if isTag rest then some .tag
      else none
  | _ => none

/-- Whether a block of this kind may follow a paragraph without an empty line. -/
def Kind.interrupts : Kind → Bool
  | .tag => false
  | _ => true

/-- Whether a line ends a block of this kind. -/
def Kind.endsIn (k : Kind) (cs : List Char) : Bool :=
  match k with
  | .raw => rawElements.any fun name => holds (("</" ++ name ++ ">").toList) cs
  | .comment => holds "-->".toList cs
  | .instruction => holds "?>".toList cs
  | .declaration => holds ">".toList cs
  | .cdata => holds "]]>".toList cs
  | .element | .tag => cs.isEmpty

end Citations.Markdown.Html

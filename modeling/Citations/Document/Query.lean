/-
**Asking a document.**

Anchors are named in several ways: by a heading's text or encoded id, with percent escapes, behind a
caret, or by a text that differs in inline decoration only.  A section runs from its heading to the
next one of the same or a higher level; a block anchor stands for the smallest block around it.

Main definitions:

* `Citations.Anchor.answersTo`, `Citations.Document.hasAnchor` — whether an anchor goes by a name;
* `Citations.Document.anchorIds` — the ids of all anchors;
* `Citations.Document.findHeading` — the heading of a given name;
* `Citations.Document.section?`, `Citations.Document.block?` — the text of a section or a block.

Main results:

* `Citations.Document.hasAnchor_of_mem` — an anchor goes by its own id.
-/

import Citations.Document
import Citations.Text.Percent

set_option relaxedAutoImplicit false
set_option autoImplicit false

namespace Citations

open Text

/-! ### Anchors -/

/-- The text that an anchor is compared by, without inline decoration: what it was declared with,
or else its id. -/
def Anchor.plainText (a : Anchor) : List Char :=
  let raw := a.rawText?.getD ""
  undecorate (if raw = "" then a.id else raw).toList

/-- **Whether an anchor goes by a name.** -/
def Anchor.answersTo (a : Anchor) (name : String) : Bool :=
  let decoded := decode name
  let cleaned := undecorate decoded.toList
  a.id == name || a.id == decoded ||
    (match a.form with
      | .header encoded _ => name == encoded || decoded == decode encoded
      | .block _ => name.toList == '^' :: a.id.toList) ||
    (!cleaned.isEmpty && cleaned == a.plainText)

namespace Document

/-- Whether a document has an anchor of a given name. -/
def hasAnchor (d : Document) (name : String) : Bool :=
  name != "" && d.anchors.any (·.answersTo name)

/-- An anchor goes by its own id. -/
theorem hasAnchor_of_mem {d : Document} {a : Anchor} (h : a ∈ d.anchors) (hid : a.id ≠ "") :
    d.hasAnchor a.id = true := by
  simp only [hasAnchor, Bool.and_eq_true, bne_iff_ne, ne_eq, hid, not_false_eq_true, true_and,
    List.any_eq_true]
  exact ⟨a, h, by simp [Anchor.answersTo]⟩

/-- The ids that an anchor offers: its own and, for a heading, the encoded one. -/
def idsOf (a : Anchor) : List String :=
  match a.form with
  | .header encoded _ => if encoded = "" then [a.id] else [a.id, encoded]
  | .block _ => [a.id]

/-- **The ids of all anchors**, each once, in order. -/
def anchorIds (d : Document) : List String := (d.anchors.flatMap idsOf).eraseDups

/-! ### Sections -/

/-- The headings of a given level, or all of them. -/
def headingsAt (d : Document) (level : Option Int) : List Heading :=
  d.headings.filter fun h => level.all (· = (h.level : Int))

/-- Whether the anchor of a heading has a name among its ids and its title. -/
def isNamed (a : Anchor) (name : String) : Bool :=
  match a.form with
  | .header encoded title => [a.id, encoded, decode encoded, title].contains name
  | .block _ => false

/-- **The heading of a given name**: by its text as written, then by the ids of its anchor, then by
its text without inline decoration. -/
def findHeading (d : Document) (name : String) (level : Option Int) : Option Heading :=
  let candidates := d.headingsAt level
  let decoded := decode name
  let cleaned := undecorate decoded.toList
  (candidates.find? (·.text = name)).or <|
    (d.anchors.findSome? fun a =>
      if isNamed a name || isNamed a decoded then
        candidates.reverse.find? (·.line = a.line)
      else none).or <|
    if cleaned.isEmpty then none else candidates.find? fun h => undecorate h.text.toList = cleaned

/-- The line behind a section: that of the next heading which is not deeper, or the end. -/
def sectionStop (d : Document) (h : Heading) : Nat :=
  match (d.headings.drop (d.headings.idxOf h + 1)).find? fun o => o.level ≤ h.level with
  | some o => o.line - 1
  | none => d.lines.length

/-- The text of the lines from `first` up to `stop`, without the white space at its end. -/
def linesText (d : Document) (first stop : Nat) : String :=
  String.ofList (trimEnd (slice d.lines first stop).flatten)

/-- **The text of a section**, from its heading on. -/
def section? (d : Document) (name : String) (level : Option Int) : Option String :=
  (d.findHeading name level).map fun h => d.linesText (h.line - 1) (d.sectionStop h)

/-! ### Blocks -/

/-- The name of a block anchor without the caret in front. -/
def withoutCaret (name : String) : String :=
  match name.toList with
  | '^' :: cs => String.ofList cs
  | _ => name

/-- The first block anchor of a given name. -/
def findBlockAnchor (d : Document) (name : String) : Option Anchor :=
  d.anchors.find? fun a => a.kind = .block ∧ a.id = withoutCaret name

/-- The lines that a block anchor stands for: the smallest block around it, or its own line. -/
def blockLines (d : Document) (a : Anchor) : Nat × Nat :=
  match Markdown.innermost d.blocks (a.line - 1) with
  | some b => (b.first, b.stop)
  | none => (a.line - 1, a.line)

/-- **The text of the block that an anchor stands for.** -/
def block? (d : Document) (name : String) : Option String :=
  (d.findBlockAnchor name).map fun a =>
    d.linesText (d.blockLines a).1 (d.blockLines a).2

end Document

end Citations

/-
**From citations to links.**

A citation becomes a link when its path is resolved against the document that holds it.  The text
between a link and the next one on its line is searched for a marker, which then belongs to the
link.

Main definitions:

* `Citations.Origin` — where a line comes from;
* `Citations.Link.ofCitation` — the link that a citation makes;
* `Citations.Link.ofLine` — the links of a line, from left to right.
-/

import Citations.Link.Citation
import Citations.Link.Marker
import Citations.Path
import Citations.Text.Percent

set_option relaxedAutoImplicit false
set_option autoImplicit false

namespace Citations

open Text

/-- Where a line comes from: the working directory, the document, and the number of the line. -/
structure Origin where
  cwd : String
  source : String
  line : Nat

/-- The file that a path written in a document points at. -/
def TargetPath.ofRaw (cwd source raw : String) : TargetPath :=
  let absolute := Path.resolve (decode raw) source
  ⟨raw, absolute, Path.relativeToDocument cwd absolute source⟩

namespace Link

/-- The link that a citation makes, its marker being looked for before place `markerStop`. -/
def ofCitation (origin : Origin) (line : List Char) (c : Citation) (markerStop : Nat) : Link where
  kind := c.kind
  anchorKind := if c.kind = .caret then some .block else anchorKindOf c.anchor
  source := origin.source
  target := ⟨c.path.map (TargetPath.ofRaw origin.cwd origin.source), c.anchor⟩
  text := c.text
  fullMatch := String.ofList (slice line c.start c.stop)
  line := origin.line
  column := c.start
  marker := Marker.first? (slice line c.stop markerStop)
  verdict := none

/-- The links that citations make, given from left to right: the search for a marker ends where the
next citation starts. -/
def ofCitations (origin : Origin) (line : List Char) : List Citation → List Link
  | [] => []
  | [c] => [ofCitation origin line c line.length]
  | c :: next :: rest =>
      ofCitation origin line c next.start :: ofCitations origin line (next :: rest)

/-- **The links of a line**, from left to right. -/
def ofLine (origin : Origin) (line : String) : List Link :=
  ofCitations origin line.toList (citations line.toList)

end Link

end Citations

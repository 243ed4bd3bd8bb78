/-
**Reports as records.**

What is known of links, verdicts, anchors and extracted texts is written as JSON records; here is
which fields they have, in which order.

Main definitions:

* `Citations.Link.toJson`, `Citations.Verdict.toJson`, `Citations.Heading.toJson`,
  `Citations.Anchor.toJson` — the parts of a report;
* `Citations.Output.checked`, `Citations.Output.extraction`, `Citations.Output.outline` — whole
  reports.
-/

import Citations.Extraction
import Citations.Number.Shortest
import Citations.Output.Json
import Citations.Summary

set_option relaxedAutoImplicit false
set_option autoImplicit false

namespace Citations

/-! ### Names -/

/-- The name of a way to write links. -/
def LinkKind.name : LinkKind → String
  | .markdown => "markdown"
  | .wiki => "wiki"
  | .cite => "cite"
  | .caret => "caret"

/-- The name of a scope. -/
def Scope.name : Scope → String
  | .sameDocument => "internal"
  | .crossDocument => "cross-document"

/-- The name of a kind of anchor. -/
def AnchorKind.name : AnchorKind → String
  | .header => "header"
  | .block => "block"

/-- The name of a way in which following a link ends. -/
def Finding.Status.name : Finding.Status → String
  | .success => "success"
  | .skipped => "skipped"
  | .error => "error"

/-! ### Parts -/

open JsonValue

/-- A directive as a record. -/
def Marker.toJson (m : Marker) : JsonValue :=
  .record [("full_match", .text m.fullMatch), ("inner_text", .text m.innerText)]

/-- The target of a link as a record. -/
def Target.toJson (t : Target) : JsonValue :=
  .record
    [("path", .record
      [("raw", ofText? (t.path.map TargetPath.raw)),
       ("absolute", ofText? (t.path.map TargetPath.absolute)),
       ("relative", ofText? (t.path.map TargetPath.relative))]),
     ("anchor", ofText? t.anchor)]

/-- A better way to write a path as a record. -/
def PathConversion.toJson (c : PathConversion) : JsonValue :=
  .record [("type", .text "path-conversion"), ("original", .text c.written),
    ("recommended", .text c.recommended)]

/-- A verdict as a record. -/
def Verdict.toJson : Verdict → JsonValue
  | .valid resolved => .record [("status", .text "valid"), ("resolved_path", ofText? resolved)]
  | .warning problem conversion resolved suggestion =>
      .record [("status", .text "warning"), ("error", .text problem),
        ("path_conversion", conversion.toJson), ("resolved_path", .text resolved),
        ("suggestion", ofText? suggestion)]
  | .error problem suggestion =>
      .record [("status", .text "error"), ("error", .text problem),
        ("suggestion", ofText? suggestion)]

/-- A value that may be absent. -/
def JsonValue.ofOption {α : Type} (f : α → JsonValue) : Option α → JsonValue
  | none => .null
  | some a => f a

/-- A link as a record. -/
def Link.toJson (l : Link) : JsonValue :=
  .record [("link_type", .text l.kind.name), ("scope", .text l.scope.name),
    ("anchor_type", ofText? (l.anchorKind.map AnchorKind.name)), ("source_path", .text l.source),
    ("target", l.target.toJson), ("text", ofText? l.text), ("full_match", .text l.fullMatch),
    ("line", .ofNat l.line), ("column", .ofNat l.column),
    ("extraction_marker", .ofOption Marker.toJson l.marker),
    ("validation", .ofOption Verdict.toJson l.verdict)]

/-- A heading as a record. -/
def Heading.toJson (h : Heading) : JsonValue :=
  .record [("level", .ofNat h.level), ("text", .text h.text), ("line", .ofNat h.line)]

/-- An anchor as a record. -/
def Anchor.toJson (a : Anchor) : JsonValue :=
  .record [("anchor_type", .text a.kind.name), ("id", .text a.id),
    ("url_encoded_id", ofText? a.encodedId?), ("raw_text", ofText? a.rawText?),
    ("line", .ofNat a.line), ("column", .ofNat a.column)]

/-- A summary as a record. -/
def Summary.toJson (s : Summary) : JsonValue :=
  .record [("total", .ofNat s.total), ("valid", .ofNat s.valid), ("warning", .ofNat s.warning),
    ("error", .ofNat s.error)]

/-- A collected text as a record. -/
def ContentBlock.toJson (b : ContentBlock) : JsonValue :=
  .record [("content_id", .text b.id), ("content", .text b.content),
    ("content_length", .ofNat b.length)]

/-- What came of a link as a record. -/
def Report.toJson (r : Report) : JsonValue :=
  .record [("source_link", r.link.toJson), ("status", .text r.finding.status.name),
    ("content_id", ofText? r.contentId?), ("reason", .text r.finding.reason)]

/-- Reports write an exponent for numbers from ten to the power 16 on, and for those below one
hundred-thousandth. -/
def JsonValue.layout : Layout := ⟨16, 4, false⟩

/-- What was saved as a record. -/
def Extraction.Statistics.toJson (s : Extraction.Statistics) : JsonValue :=
  .record [("total_links", .ofNat s.totalLinks), ("unique_content", .ofNat s.uniqueContent),
    ("duplicate_content_detected", .number s.duplicates), ("tokens_saved", .number s.saved),
    ("compression_ratio", .decimal (s.ratio.shortest JsonValue.layout))]

namespace Output

/-! ### Whole reports -/

/-- **The report on checked links.** -/
def checked (ls : List Link) : JsonValue :=
  .record [("links", .list (ls.map Link.toJson)), ("summary", (Summary.ofLinks ls).toJson)]

/-- **The report on extracted texts.** -/
def extraction (e : Extraction) : JsonValue :=
  .record [("content_index", .record (e.blocks.map fun b => (b.id, b.toJson))),
    ("link_reports", .list (e.reports.map Report.toJson)), ("stats", e.statistics.toJson),
    ("total_content_length", .ofNat e.totalLength)]

/-- **The report on the parts of a document.** -/
def outline (d : Document) : JsonValue :=
  .record [("path", .text d.path), ("headings", .list (d.headings.map Heading.toJson)),
    ("anchors", .list (d.anchors.map Anchor.toJson)), ("links", .list (d.links.map Link.toJson))]

end Output

end Citations

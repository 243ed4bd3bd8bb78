/-
**Suggestions for a missing anchor.**

Main definitions:

* `Citations.SuggestionPolicy` — how similar an id must be to be offered, and how many are;
* `Citations.Document.similarAnchors` — the ids of a document that are similar to a name;
* `Citations.Document.suggestion` — what to say about an anchor that a document does not have.
-/

import Citations.Document.Query
import Citations.Similarity

set_option relaxedAutoImplicit false
set_option autoImplicit false

namespace Citations

open Text

/-- How similar an id must be to be offered, and how many are offered at most. -/
structure SuggestionPolicy where
  threshold : Binary64
  limit : Int
  deriving DecidableEq

namespace Document

/-- The ids of a document that are similar to a name, best first. -/
def similarAnchors (d : Document) (policy : SuggestionPolicy) (name : String) : List String :=
  rankSimilar name d.anchorIds policy.threshold policy.limit

/-- Whether a name is an id in lower case with hyphens between its words. -/
def isKebabOf (name id : String) : Bool :=
  id.toList.contains ' ' && joinWords ['-'] (lower id.toList) == name.toList

/-- **What to say about an anchor that a document does not have.** -/
def suggestion (d : Document) (policy : SuggestionPolicy) (name : String) : String :=
  match d.anchorIds.find? (isKebabOf name) with
  | some id => "Use raw header format: #" ++ id
  | none =>
      match d.similarAnchors policy name with
      | [] => "No similar anchors found"
      | [best] => "Did you mean #" ++ best ++ "?"
      | best :: others =>
          "Did you mean #" ++ best ++ "? Available anchors: " ++ ", ".intercalate others

end Document

end Citations

/-
**Which links are extracted.**

A list of rules is asked in turn about a link, and the first one that has an opinion decides.  In
the default order a stop directive comes first, then a directive that forces extraction, then links
to a place in a file, and last links to whole files, which need a flag.

Main definitions:

* `Citations.Eligibility.Rule` — the rules;
* `Citations.Eligibility.Ruling` — the opinions a rule can have;
* `Citations.Eligibility.decide` — the ruling of a list of rules on a link.

Main results:

* `Citations.Eligibility.decide_cons_of_some` — the first rule with an opinion decides;
* `Citations.Eligibility.decide_default_of_stop` — a stop directive settles the matter.
-/

import Citations.Link.Basic

set_option relaxedAutoImplicit false
set_option autoImplicit false

namespace Citations.Eligibility

/-- The rules that a link can be put to. -/
inductive Rule where
  | stopMarker
  | forceMarker
  | sectionLink
  | fullFileFlag
  deriving DecidableEq

/-- What a rule says of a link. -/
inductive Ruling where
  /-- A directive stops the extraction. -/
  | stopped
  /-- A directive forces the extraction. -/
  | forced
  /-- The link names a place in a file. -/
  | hasAnchor
  /-- Whole files are wanted. -/
  | fullFiles
  /-- Whole files are not wanted. -/
  | wholeFile
  /-- No rule had an opinion. -/
  | undecided
  deriving DecidableEq

/-- Whether the link is to be extracted. -/
def Ruling.eligible : Ruling → Bool
  | .forced | .hasAnchor | .fullFiles => true
  | .stopped | .wholeFile | .undecided => false

/-- The words for a ruling. -/
def Ruling.reason : Ruling → String
  | .stopped => "stop-extract-link marker prevents extraction"
  | .forced => "force-extract overrides defaults"
  | .hasAnchor => "Markdown anchor links eligible by default"
  | .fullFiles => "CLI flag --full-files forces extraction"
  | .wholeFile => "Full-file link ineligible without --full-files flag"
  | .undecided => "No strategy matched"

/-- The directive that stops the extraction of a link. -/
def stopDirective : String := "stop-extract-link"

/-- The directive that forces the extraction of a link. -/
def forceDirective : String := "force-extract"

/-- What one rule says of a link, if it has an opinion. -/
def Rule.ruling? (fullFiles : Bool) (l : Link) : Rule → Option Ruling
  | .stopMarker =>
      if l.marker.any (·.innerText = stopDirective) then some .stopped else none
  | .forceMarker =>
      if l.marker.any (·.innerText = forceDirective) then some .forced else none
  | .sectionLink => if l.anchorKind.isSome then some .hasAnchor else none
  | .fullFileFlag => some (if fullFiles then .fullFiles else .wholeFile)

/-- The rules in their default order. -/
def defaultRules : List Rule := [.stopMarker, .forceMarker, .sectionLink, .fullFileFlag]

/-- **The ruling on a link**: that of the first rule with an opinion. -/
def decide (rules : List Rule) (fullFiles : Bool) (l : Link) : Ruling :=
  (rules.findSome? (Rule.ruling? fullFiles l)).getD .undecided

theorem decide_cons_of_some {r : Rule} {rules : List Rule} {fullFiles : Bool} {l : Link}
    {ruling : Ruling} (h : r.ruling? fullFiles l = some ruling) :
    decide (r :: rules) fullFiles l = ruling := by
  simp [decide, h]

theorem decide_cons_of_none {r : Rule} {rules : List Rule} {fullFiles : Bool} {l : Link}
    (h : r.ruling? fullFiles l = none) :
    decide (r :: rules) fullFiles l = decide rules fullFiles l := by
  simp [decide, h]

/-- A stop directive settles the matter. -/
theorem decide_default_of_stop {fullFiles : Bool} {l : Link} {m : Marker}
    (hm : l.marker = some m) (hs : m.innerText = stopDirective) :
    decide defaultRules fullFiles l = .stopped :=
  decide_cons_of_some (by simp [Rule.ruling?, hm, hs])

end Citations.Eligibility

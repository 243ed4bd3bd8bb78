/-
**Finding the text that a link cites.**

A link is followed only when it was checked, was found in order, and is to be extracted at all.  Its
text is the section below a heading, the block that an anchor stands for, or the whole document, as
the link says.

Main definitions:

* `Citations.RetrievalFailure` — why there is no text;
* `Citations.Link.contentPath` — the document that holds the text;
* `Citations.Link.passage?` — the text in that document;
* `Citations.Link.retrieve` — the text that a link cites;
* `Citations.Finding` — what came of a link;
* `Citations.Link.finding` — follows a link, if it is to be followed.
-/

import Citations.Document.Query
import Citations.Extraction.Eligibility
import Citations.Inquiry

set_option relaxedAutoImplicit false
set_option autoImplicit false

namespace Citations

open Text

/-- Why there is no text. -/
inductive RetrievalFailure where
  /-- The document cannot be read. -/
  | unreadable (failure : ReadFailure)
  /-- The document has no such section or block. -/
  | missing (path anchor : String)
  deriving DecidableEq

/-- The words for a failure. -/
def RetrievalFailure.message : RetrievalFailure → String
  | .unreadable e => e.message
  | .missing path anchor => "Anchor not found in " ++ path ++ ": #" ++ anchor

namespace Link

/-- The document that holds the text of a link: where checking found it, or else where the link
says. -/
def contentPath (l : Link) : String :=
  match l.verdict.bind Verdict.resolved? with
  | none | some "" => (l.target.path.map TargetPath.absolute).getD ""
  | some path => path

/-- The text that a link cites in a document. -/
def passage? (l : Link) (d : Document) : Option String :=
  let anchor := l.target.anchor.getD ""
  match l.anchorKind with
  | some .header => d.section? (decode anchor) none
  | some .block => d.block? anchor
  | none => some d.content

/-- **The text that a link cites.** -/
def retrieve (l : Link) : Inquiry (Except RetrievalFailure String) := do
  match ← .askDocument l.contentPath with
  | .error e => return .error (.unreadable e)
  | .ok d =>
      match l.passage? d with
      | none => return .error (.missing l.contentPath (l.target.anchor.getD ""))
      | some text => return .ok text

end Link

/-- What came of a link. -/
inductive Finding where
  /-- The link was not checked. -/
  | unchecked
  /-- Checking found something wrong. -/
  | broken (problem : String)
  /-- The link is not to be extracted. -/
  | ineligible (ruling : Eligibility.Ruling)
  /-- There is no text. -/
  | unavailable (failure : RetrievalFailure)
  /-- The text, and why the link was followed. -/
  | found (ruling : Eligibility.Ruling) (text : String)
  deriving DecidableEq

/-- What is wrong with a link according to its verdict. -/
def Verdict.problem? : Verdict → Option String
  | .error problem _ => some problem
  | _ => none

/-- **Follows a link, if it is to be followed.** -/
def Link.finding (rules : List Eligibility.Rule) (fullFiles : Bool) (l : Link) :
    Inquiry Finding :=
  match l.verdict with
  | none => .answer .unchecked
  | some v =>
      match v.problem? with
      | some problem => .answer (.broken problem)
      | none =>
          let ruling := Eligibility.decide rules fullFiles l
          if ruling.eligible then do
            match ← l.retrieve with
            | .error e => return .unavailable e
            | .ok text => return .found ruling text
          else .answer (.ineligible ruling)

namespace Finding

/-- The three ways in which following a link can end. -/
inductive Status where
  | success
  | skipped
  | error
  deriving DecidableEq

/-- In which way following a link ended. -/
def status : Finding → Status
  | .unchecked | .broken _ | .ineligible _ => .skipped
  | .unavailable _ => .error
  | .found .. => .success

/-- The text that was found. -/
def text? : Finding → Option String
  | .found _ text => some text
  | _ => none

/-- The words for what came of a link. -/
def reason : Finding → String
  | .unchecked => "Link was not validated"
  | .broken problem => "Link failed validation: " ++ problem
  | .ineligible ruling => "Link not eligible: " ++ ruling.reason
  | .unavailable e => "Extraction failed: " ++ e.message
  | .found ruling _ => ruling.reason

/-- There is a text exactly where following the link succeeded. -/
theorem isSome_text?_iff (f : Finding) : f.text?.isSome ↔ f.status = .success := by
  cases f <;> simp [text?, status]

end Finding

end Citations

/-
**Questions about other documents.**

Checking and extracting need to know what is in other documents, and where a file of some name is.
An inquiry says what is asked and how it goes on with the answer, but not who answers: it can be
answered by a session that remembers documents, one question after another, or several inquiries
can take turns.

Main definitions:

* `Citations.Inquiry` — an inquiry and what comes of it;
* `Citations.Inquiry.bind` — an inquiry that goes on with another one;
* `Citations.Inquiry.each` — the same inquiry about each element of a list;
* `Citations.Inquiry.eval` — what comes of an inquiry when the answers never change.

Main results:

* `Citations.Inquiry.eval_bind`, `Citations.Inquiry.eval_each` — the answers determine what comes of
  an inquiry part by part.
-/

import Citations.Document
import Citations.FileIndex
import Citations.FileTree.Text

set_option relaxedAutoImplicit false
set_option autoImplicit false

namespace Citations

/-- An inquiry and what comes of it. -/
inductive Inquiry (α : Type) where
  /-- Nothing is left to ask. -/
  | answer (a : α)
  /-- Asks for the document at a path. -/
  | document (path : String) (next : Except ReadFailure Document → Inquiry α)
  /-- Asks for the file of a name, which only some sessions can look for; the scope may have to be
  listed, and that can fail. -/
  | file (name : String) (next : Except SearchFailure (Option NameResolution) → Inquiry α)

namespace Inquiry

variable {α β : Type}

/-- **An inquiry that goes on with another one.** -/
def bind : Inquiry α → (α → Inquiry β) → Inquiry β
  | .answer a, f => f a
  | .document path next, f => .document path fun r => (next r).bind f
  | .file name next, f => .file name fun r => (next r).bind f

instance : Monad Inquiry where
  pure := .answer
  bind := bind

/-- Asks for the document at a path. -/
def askDocument (path : String) : Inquiry (Except ReadFailure Document) := .document path .answer

/-- Asks for the file of a name. -/
def askFile (name : String) : Inquiry (Except SearchFailure (Option NameResolution)) :=
  .file name .answer

/-- The same inquiry about each element of a list, in order. -/
def each (ask : α → Inquiry β) : List α → Inquiry (List β)
  | [] => .answer []
  | a :: as => (ask a).bind fun b => (each ask as).bind fun bs => .answer (b :: bs)

/-! ### Answers that never change -/

/-- What comes of an inquiry when the answers never change. -/
def eval (documents : String → Except ReadFailure Document)
    (files : String → Except SearchFailure (Option NameResolution)) : Inquiry α → α
  | .answer a => a
  | .document path next => (next (documents path)).eval documents files
  | .file name next => (next (files name)).eval documents files

variable (documents : String → Except ReadFailure Document)
  (files : String → Except SearchFailure (Option NameResolution))

@[simp] theorem eval_answer (a : α) : (answer a).eval documents files = a := rfl

/-- What comes of one inquiry after another is what comes of the second for what comes of the
first. -/
theorem eval_bind (q : Inquiry α) (f : α → Inquiry β) :
    (q.bind f).eval documents files = (f (q.eval documents files)).eval documents files := by
  induction q with
  | answer a => rfl
  | document path next ih => exact ih _
  | file name next ih => exact ih _

/-- An inquiry about each element is the inquiry about one of them, element by element. -/
theorem eval_each (ask : α → Inquiry β) (as : List α) :
    (each ask as).eval documents files = as.map fun a => (ask a).eval documents files := by
  induction as with
  | nil => rfl
  | cons a as ih => simp [each, eval_bind, ih]

end Inquiry

end Citations

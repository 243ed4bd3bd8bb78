/-
**Dialects of Markdown.**

Which kinds of block a document may hold, and how deeply they may nest, depends on the dialect that
it is read in.

Main definitions:

* `Citations.Markdown.Dialect` — the choices that make a dialect;
* `Citations.Markdown.Dialect.named` — the dialect of a given name.
-/

set_option relaxedAutoImplicit false
set_option autoImplicit false

namespace Citations.Markdown

/-- The choices that make a dialect: whether there is any kind of block but paragraphs, whether
tables and HTML blocks are among them, and how many containers may be open at once. -/
structure Dialect where
  structured : Bool
  tables : Bool
  html : Bool
  nesting : Nat
  deriving DecidableEq

namespace Dialect

/-- The usual dialect: everything there is. -/
def standard : Dialect := ⟨true, true, true, 20⟩

/-- The dialect without tables. -/
def plain : Dialect := ⟨true, false, true, 20⟩

/-- The dialect without HTML blocks, in which containers may nest more deeply. -/
def safe : Dialect := ⟨true, true, false, 100⟩

/-- The dialect in which everything is a paragraph. -/
def flat : Dialect := ⟨false, false, false, 20⟩

/-- Why a dialect cannot be chosen. -/
inductive Error where
  /-- No dialect has this name. -/
  | unknown (name : String)
  deriving DecidableEq

/-- The words for an error. -/
def Error.message : Error → String
  | .unknown name => "Wrong `markdown-it` preset '" ++ name ++ "', check name"

/-- **The dialect of a given name.** -/
def named (name : String) : Except Error Dialect :=
  match name with
  | "gfm-like" => .ok standard
  | "commonmark" => .ok plain
  | "js-default" | "default" => .ok safe
  | "zero" => .ok flat
  | other => .error (.unknown other)

end Dialect

end Citations.Markdown

import Outline.Schema.Basic

/-!
# Parts of templates

A template is a skeleton of a document: headings, comments that say what a section has to contain,
and placeholders for it.

* `Placeholder`: what stands in for the content of a section;
* `TemplatePart`: a piece of a template;
* `TemplatePart.lines`: the lines of a piece.
-/

namespace Outline

/-- What stands in for the content of a section. -/
inductive Placeholder where
  | text
  | code (lang : String)
  | image (format : String)
  | table (headers : List String)
  | list (ordered : Bool) (items : Nat)
deriving DecidableEq

namespace Placeholder

/-- The lines of a block of code. -/
def codeLines (lang : String) : List String :=
  ["\x60\x60\x60" ++ (if lang.isEmpty then "text" else lang), "TODO: Add your code here",
    "\x60\x60\x60"]

/-- A row of a table. -/
def tableRow (cells : List String) : String := "| " ++ " | ".intercalate cells ++ " |"

/-- The row of a table that separates its headers from its body. -/
def tableRuler (columns : Nat) : String :=
  "|" ++ String.join (List.replicate columns "---|")

/-- The lines of a table with one row in its body. -/
def tableLines (headers : List String) : List String :=
  [tableRow headers, tableRuler headers.length, tableRow (headers.map fun _ => "TODO")]

/-- What an item of a list starts with. -/
def marker (ordered : Bool) (number : Nat) : String :=
  if ordered then toString number ++ "." else "-"

/-- The lines of a list. -/
def listLines (ordered : Bool) (items : Nat) : List String :=
  (List.range' 1 items).map fun i => marker ordered i ++ " TODO: Add list item"

/-- The lines of a placeholder, without the empty one that follows. -/
def lines : Placeholder → List String
  | .text => ["TODO: Add content for this section."]
  | .code lang => codeLines lang
  | .image format => ["![TODO: Add alt text](path/to/image." ++ format ++ ")"]
  | .table headers => tableLines headers
  | .list ordered items => listLines ordered items

end Placeholder

/-- A piece of a template. -/
inductive TemplatePart where
  /-- A line as it is. -/
  | line (text : String)
  /-- A comment on a line of its own. -/
  | comment (text : String)
  /-- An empty line. -/
  | gap
  /-- A placeholder with an empty line behind it. -/
  | placeholder (p : Placeholder)
deriving DecidableEq

namespace TemplatePart

/-- The lines of a piece. -/
def lines : TemplatePart → List String
  | .line text => [text]
  | .comment text => ["<!-- " ++ text ++ " -->"]
  | .gap => [""]
  | .placeholder p => p.lines ++ [""]

end TemplatePart

end Outline

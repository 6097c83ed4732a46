import Outline.Document.Basic
import Outline.Heading.Spec
import Outline.Value.Basic
import Outline.Yaml.Print

/-!
# Sketches of documents

The headings of a document, nested as its sections are. Written down, they are a schema that asks for
just these headings.

* `Sketch`: a heading with those below it;
* `Document.sketch?`: the headings of a document that has any;
* `Sketch.valueOf`: the schema as a value;
* `Sketch.textOf`: the schema as a YAML text.
-/

namespace Outline

/-- A heading in its written form, with those below it. -/
structure Sketch where
  heading : String
  children : List Sketch

mutual

/-- The heading of a section and those below it. -/
def Section.sketch : Section → Sketch
  | ⟨heading, _, children⟩ => ⟨heading.written, sketchAll children⟩

/-- The headings of sections and those below them. -/
def sketchAll : List Section → List Sketch
  | [] => []
  | s :: ss => s.sketch :: sketchAll ss

end

/-- The headings of a document, if it has any. -/
def Document.sketch? (d : Document) : Option (List Sketch) :=
  if d.sections.isEmpty then none else some (sketchAll d.sections)

/-- What is said about a document without headings. -/
def noHeadings : String := "document has no headings to infer structure"

namespace Sketch

mutual

/-- An expected heading as a value. -/
def value : Sketch → Value
  | ⟨heading, []⟩ => .map [(.str "heading", .str heading)]
  | ⟨heading, children⟩ =>
    .map [(.str "heading", .str heading), (.str "children", .list (values children))]

/-- Expected headings as values. -/
def values : List Sketch → List Value
  | [] => []
  | s :: ss => s.value :: values ss

end

/-- The schema that asks for these headings. -/
def valueOf (sketches : List Sketch) : Value := .map [(.str "structure", .list (values sketches))]

/-- So many blanks. -/
def blanks (n : Nat) : String := String.ofList (List.replicate n ' ')

/-- The text of an expected heading that is nested so deep: a blank before each of two columns, a
dash and the key, and then the heading in quotes. -/
def headingLine (depth : Nat) (heading : String) : String :=
  blanks (2 * depth) ++ "- heading: " ++
    Yaml.scalarText (2 * depth + 4) (2 * depth + 11) heading ++ "\n"

mutual

/-- The text of an expected heading that is nested so deep. -/
def text (depth : Nat) : Sketch → String
  | ⟨heading, []⟩ => headingLine depth heading
  | ⟨heading, children⟩ =>
    headingLine depth heading ++ blanks (2 * depth + 2) ++ "children:\n" ++
      textAll (depth + 1) children

/-- The text of expected headings that are nested so deep. -/
def textAll (depth : Nat) : List Sketch → String
  | [] => ""
  | s :: ss => s.text depth ++ textAll depth ss

end

/-- The schema that asks for these headings as a YAML text. -/
def textOf (sketches : List Sketch) : String := "structure:\n" ++ textAll 0 sketches

end Sketch

end Outline

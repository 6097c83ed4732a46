import Outline.Document.FrontMatter

/-!
# Documents

A document is a tree of sections: each heading begins one, which owns what follows up to the next
heading and, as subsections, the sections of deeper headings behind it. What stands before the first
heading is the preamble. Lines and columns are counted from 1.

* `Heading`, `Elements`, `Body`: what a section is made of;
* `Section`, `Section.walk`: a section, and all sections in it in the order of the document;
* `PlacedSection`, `Section.walkUnder`: the same with the sections that each one lies in;
* `Document`: a document.
-/

namespace Outline

/-- A heading. -/
structure Heading where
  level : Nat
  text : String
  line : Nat
  column : Nat
  slug : String
deriving DecidableEq

/-- A fenced block of code and its language. -/
structure CodeBlock where
  lang : String
  line : Nat
  column : Nat
deriving DecidableEq

/-- A table and the texts of its head. -/
structure Table where
  headers : List String
  line : Nat
  column : Nat
deriving DecidableEq

/-- A link. -/
structure Link where
  url : String
  text : String
  line : Nat
  column : Nat
deriving DecidableEq

/-- Whether a link leads to a place in its own document. -/
def Link.isInternal (l : Link) : Bool := l.url.toList.head? == some '#'

/-- An image and the text that stands for it. -/
structure Image where
  url : String
  alt : String
  line : Nat
  column : Nat
deriving DecidableEq

/-- A list and the number of its items; the lists inside it count on their own. -/
structure ItemList where
  ordered : Bool
  itemCount : Nat
  line : Nat
  column : Nat
deriving DecidableEq

/-- The elements of a section, each kind in the order of the document. -/
structure Elements where
  codeBlocks : List CodeBlock := []
  tables : List Table := []
  links : List Link := []
  images : List Image := []
  lists : List ItemList := []
deriving DecidableEq

/-- What a section owns: its lines up to the next section of its level, and the text and the elements
behind its heading and before the next one. -/
structure Body where
  startLine : Nat
  endLine : Nat
  text : String
  elements : Elements
deriving DecidableEq

/-- A section. -/
structure Section where
  heading : Heading
  body : Body
  children : List Section

instance : Inhabited Section := ⟨⟨⟨1, "", 1, 1, ""⟩, ⟨1, 1, "", {}⟩, []⟩⟩

/-- The line where a section begins. -/
def Section.startLine (s : Section) : Nat := s.body.startLine

mutual

/-- A section and all sections in it, in the order of the document. -/
def Section.walk : Section → List Section
  | ⟨h, b, children⟩ => ⟨h, b, children⟩ :: walkAll children

/-- Sections and all sections in them, in the order of the document. -/
def walkAll : List Section → List Section
  | [] => []
  | s :: rest => s.walk ++ walkAll rest

end

/-- A section and the sections that it lies in, the nearest first. -/
structure PlacedSection where
  self : Section
  ancestors : List Section

mutual

/-- A section and all sections in it, with the sections that they lie in. -/
def Section.walkUnder (ancestors : List Section) : Section → List PlacedSection
  | ⟨h, b, children⟩ =>
    ⟨⟨h, b, children⟩, ancestors⟩ :: walkAllUnder (⟨h, b, children⟩ :: ancestors) children

/-- Sections and all sections in them, with the sections that they lie in. -/
def walkAllUnder (ancestors : List Section) : List Section → List PlacedSection
  | [] => []
  | s :: rest => s.walkUnder ancestors ++ walkAllUnder ancestors rest

end

/-- A document. -/
structure Document where
  path : String
  text : String
  frontMatter : Option FrontMatter
  preamble : Body
  sections : List Section

namespace Document

/-- All sections of a document, in order. -/
def allSections (d : Document) : List Section := walkAll d.sections

/-- All sections of a document with the sections that they lie in, in order. -/
def placedSections (d : Document) : List PlacedSection := walkAllUnder [] d.sections

/-- All headings of a document, in order. -/
def headings (d : Document) : List Heading := d.allSections.map (·.heading)

/-- All links of a document, in order. -/
def links (d : Document) : List Link :=
  d.preamble.elements.links ++ d.allSections.flatMap (·.body.elements.links)

end Document

end Outline

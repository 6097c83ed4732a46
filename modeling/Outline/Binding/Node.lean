import Outline.Schema.Basic

/-!
# Nodes

A node is an expected heading together with the section bound to it, if one was found. The nodes of
a schema form trees of the shape of the schema, where a repeatable element has a node for each of
its sections.

* `Node`: a node with the nodes below it;
* `Placed`: a node with its ancestors, the nearest first;
* `Node.walk`: a node and all nodes below it, each before those below it;
* `Placed.headingText`, `Placed.location`: the name of a node in messages, and where they point.
-/

namespace Outline

/-- An expected heading and the section bound to it. -/
structure Node where
  element : Element
  boundTo? : Option Section
  /-- The place of the element among its siblings in the schema. -/
  order : Nat
  /-- How many sections are bound to the element here, and which of them this one is. -/
  matchCount : Nat := 0
  matchIndex : Nat := 0
  children : List Node := []

namespace Node

instance : Inhabited Node := ⟨⟨default, none, 0, 0, 0, []⟩⟩

/-- Whether a section is bound to the node. -/
def isBound (n : Node) : Bool := n.boundTo?.isSome

/-- The line where the bound section begins. -/
def startLine? (n : Node) : Option Nat := n.boundTo?.map (·.startLine)

/-- The text of the heading that was found, or what it should have been. -/
def headingText (n : Node) : String :=
  match n.boundTo? with
  | some s => s.heading.text
  | none => n.element.heading.display

/-- The text of the bound section. -/
def content (n : Node) : String :=
  match n.boundTo? with
  | some s => s.body.text
  | none => ""

/-- The elements of the bound section. -/
def elements (n : Node) : Elements :=
  match n.boundTo? with
  | some s => s.body.elements
  | none => {}

end Node

/-- A node and its ancestors, the nearest first. -/
structure Placed where
  node : Node
  ancestors : List Node

mutual

/-- A node and all nodes below it, each before those below it. -/
def Node.walk (ancestors : List Node) : Node → List Placed
  | ⟨element, boundTo?, order, matchCount, matchIndex, children⟩ =>
    let node : Node := ⟨element, boundTo?, order, matchCount, matchIndex, children⟩
    ⟨node, ancestors⟩ :: walkNodes (node :: ancestors) children

/-- Nodes and all nodes below them. -/
def walkNodes (ancestors : List Node) : List Node → List Placed
  | [] => []
  | n :: ns => n.walk ancestors ++ walkNodes ancestors ns

end

namespace Placed

/-- The heading of the nearest bound node among a node and its ancestors. -/
def nearestHeading? (p : Placed) : Option Heading :=
  (p.node :: p.ancestors).findSome? fun n => n.boundTo?.map (·.heading)

/-- Where messages about a node point: its heading, that of the nearest bound ancestor, or the start
of the document. -/
def location (p : Placed) : Nat × Nat :=
  match p.nearestHeading? with
  | some h => (h.line, h.column)
  | none => (1, 1)

/-- The parent of a node. -/
def parent? (p : Placed) : Option Node := p.ancestors.head?

end Placed

end Outline

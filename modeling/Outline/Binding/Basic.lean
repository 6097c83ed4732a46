import Outline.Binding.Node
import Outline.Document.Basic
import Outline.Heading.Matcher

/-!
# Binding

The elements of a schema are bound to the sections of a document. Siblings are bound in order: each
element takes the first section, or the first sections, that its heading accepts, that are still
free and that begin after the last section taken by the siblings before it; the elements below it
are bound to the subsections of each section it took. A required element that finds no section gets
a node without one, as do the required elements below it.

* `takeMatching`, `askedAmong`: the first matching members of a list, and those that were looked at;
* `bindSiblings`: elements bound to sections;
* `Binding`, `bindDocument`: the nodes of a whole document;
* `Binding.unmatched`: the sections that no element took;
* `anchorName`, `anchors`: the names under which links reach the sections of their own document.
-/

namespace Outline

/-- Whether a specification accepts a heading. -/
abbrev Accepts := HeadingSpec → Heading → Bool

/-! ## Looking for sections -/

section Lists

variable {α : Type} (p : α → Bool)

/-- The first members of a list that satisfy `p`, at most so many if there is a limit. -/
def takeMatching (most : Option Nat) (l : List α) : List α :=
  match most with
  | some n => (l.filter p).take n
  | none => l.filter p

/-- The members of a list that have to be looked at to find the first ones that satisfy `p`. -/
def askedAmong : (most : Option Nat) → List α → List α
  | _, [] => []
  | some 0, _ :: _ => []
  | most, a :: as => a :: askedAmong (if p a then most.map (· - 1) else most) as

end Lists

/-- What has been done so far: the first lines of the bound sections, and the questions asked, the
last one first. -/
structure Progress where
  bound : List Nat := []
  asked : List Question := []

namespace Progress

/-- The sections that are not bound and begin after a line. -/
def free (st : Progress) (after : Nat) (sections : List Section) : List Section :=
  sections.filter fun s => !st.bound.contains s.startLine && after < s.startLine

/-- Notes that a heading was compared with those of sections. -/
def note (st : Progress) (spec : HeadingSpec) (sections : List Section) : Progress :=
  { st with asked := (sections.map fun s => ⟨spec, s.heading⟩).reverse ++ st.asked }

/-- Notes that a section is bound. -/
def bind (st : Progress) (s : Section) : Progress :=
  { st with bound := s.startLine :: st.bound }

end Progress

/-- The sections that an element takes among free ones. -/
def Element.take (accepts : Accepts) (e : Element) (free : List Section) : List Section :=
  takeMatching (fun s => accepts e.heading s.heading) e.most free

/-- The sections that are looked at for that. -/
def Element.look (accepts : Accepts) (e : Element) (free : List Section) : List Section :=
  askedAmong (fun s => accepts e.heading s.heading) e.most free

/-! ## Nodes -/

mutual

/-- The node of an element without a section. -/
def Element.unbound : Element → (order : Nat) → Node
  | ⟨heading, optional, count, severity, allowAdditional, rules, description, children⟩, order =>
    { element := ⟨heading, optional, count, severity, allowAdditional, rules, description, children⟩
      boundTo? := none
      order := order
      children := unboundSiblings 0 children }

/-- The nodes of the required ones among elements, without sections. -/
def unboundSiblings : (order : Nat) → List Element → List Node
  | _, [] => []
  | order, e :: es =>
    (if e.isRequired then [e.unbound order] else []) ++ unboundSiblings (order + 1) es

end

/-- The nodes of an element for the sections that it took, one after the other. -/
def occurrences (bindBelow : List Section → Progress → List Node × Progress) (e : Element)
    (order count : Nat) : (index : Nat) → List Section → Progress → List Node × Progress
  | _, [], st => ([], st)
  | index, s :: ss, st =>
    let (children, st) := bindBelow s.children (st.bind s)
    let node : Node :=
      { element := e
        boundTo? := some s
        order := order
        matchCount := count
        matchIndex := index
        children := children }
    let (nodes, st) := occurrences bindBelow e order count (index + 1) ss st
    (node :: nodes, st)

/-- The line after which the next sibling may begin. -/
def lastLine (after : Nat) (taken : List Section) : Nat :=
  match taken.getLast? with
  | some s => s.startLine
  | none => after

mutual

/-- The nodes of an element for the sections that it took. -/
def bindElement (accepts : Accepts) :
    Element → (order : Nat) → (taken : List Section) → Progress → List Node × Progress
  | ⟨heading, optional, count, severity, allowAdditional, rules, description, children⟩,
      order, taken, st =>
    let e : Element :=
      ⟨heading, optional, count, severity, allowAdditional, rules, description, children⟩
    if taken.isEmpty then (if e.isRequired then [e.unbound order] else [], st)
    else
      occurrences (fun sections st => bindSiblings accepts children 0 sections 0 st) e order
        taken.length 0 taken st

/-- The nodes of elements that are siblings, the first one at the place `order`, bound to sections
that begin after the line `after`. -/
def bindSiblings (accepts : Accepts) :
    List Element → (order : Nat) → (sections : List Section) → (after : Nat) → Progress →
      List Node × Progress
  | [], _, _, _, st => ([], st)
  | e :: es, order, sections, after, st =>
    let free := st.free after sections
    let taken := e.take accepts free
    let (here, st) := bindElement accepts e order taken (st.note e.heading (e.look accepts free))
    let (rest, st) := bindSiblings accepts es (order + 1) sections (lastLine after taken) st
    (here ++ rest, st)

end

/-! ## Documents -/

/-- The nodes of a schema for a document, the first lines of the sections that have a node, and the
questions that had to be answered, in order. -/
structure Binding where
  roots : List Node
  bound : List Nat
  asked : List Question

namespace Binding

/-- All nodes, each before those below it. -/
def nodes (b : Binding) : List Placed := walkNodes [] b.roots

/-- The nodes with a section. -/
def boundNodes (b : Binding) : List Placed := b.nodes.filter (·.node.isBound)

/-- The nodes without a section. -/
def unboundNodes (b : Binding) : List Placed := b.nodes.filter (!·.node.isBound)

/-- Whether a section has a node. -/
def isBound (b : Binding) (s : Section) : Bool := b.bound.contains s.startLine

/-- The sections of a document that have no node. -/
def unmatched (b : Binding) (d : Document) : List Section :=
  d.allSections.filter fun s => !b.isBound s

/-- The node of a section. -/
def nodeOf? (b : Binding) (s : Section) : Option Node :=
  (b.nodes.map (·.node)).find? fun n => n.startLine? == some s.startLine

end Binding

/-- Binds elements to a document. -/
def bindDocument (accepts : Accepts) (d : Document) (elements : List Element) : Binding :=
  let (roots, st) := bindSiblings accepts elements 0 d.sections 0 {}
  ⟨roots, st.bound, st.asked.reverse⟩

/-! ## Anchors -/

/-- A slug with a number behind it. -/
def numbered (slug : String) (n : Nat) : String := slug ++ "-" ++ toString n

/-- A slug if it is not taken, or else the first numbered one that is not. -/
def anchorName (taken : List String) (slug : String) : String :=
  if taken.contains slug then
    match (List.range (taken.length + 1)).find? fun i => !taken.contains (numbered slug (i + 1)) with
    | some i => numbered slug (i + 1)
    | none => numbered slug (taken.length + 2)
  else slug

/-- Adds the name of a section, unless its slug is empty. -/
def addAnchor (index : List (String × Section)) (s : Section) : List (String × Section) :=
  if s.heading.slug.isEmpty then index
  else index ++ [(anchorName (index.map (·.1)) s.heading.slug, s)]

/-- The names of sections, in order. -/
def anchors (sections : List Section) : List (String × Section) := sections.foldl addAnchor []

/-- Whether a name reaches a section. -/
def hasAnchor (index : List (String × Section)) (name : String) : Bool :=
  index.any fun e => e.1 == name

end Outline

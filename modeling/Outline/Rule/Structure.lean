import Outline.Binding.Basic
import Outline.Text.Quoted
import Outline.Violation

/-!
# The structure of documents

What is wrong with the headings of a document, given the nodes of the schema for it. Every list of
nodes that are siblings, with the sections that they were bound to, is a *scope*; the findings come
in five passes over all scopes:

* the first section of a scope is not the first one expected;
* a section has no node, and does not lie in one where additional sections are allowed;
* a required element has no section;
* a required element has a section, but before one that it should follow;
* a repeatable element has too few sections.

An element without a section is looked for among the sections that are free and begin before the
last one bound by its earlier siblings: it is misplaced if one is found and missing otherwise.

* `Finding`: what is wrong;
* `structureFindings`: the findings, in the order of the passes;
* `structureQuestions`: the questions that have to be answered for them.
-/

namespace Outline

/-- What is wrong with the structure of a document. -/
inductive Finding where
  /-- The first section below a heading is not the one expected. -/
  | wrongFirst (parent : String) (found : Heading) (expected : Element)
  /-- A section that is not expected. -/
  | unexpected (parent : String) (found : Heading)
  /-- A required element without a section; the place is where it was looked for. -/
  | missing (parent : String) (expected : Element) (place : Nat × Nat)
  /-- A section that should come after another one. -/
  | misplaced (expected : Element) (found : Heading) (after : String)
  /-- A repeatable element with too few sections; the place is that of the first one. -/
  | tooFew (expected : Element) (found : Nat) (place : Nat × Nat)

/-- The name of the place above all headings. -/
def documentRoot : String := "document root"

/-! ## Scopes -/

/-- Siblings, the sections that they were bound to, and the line of the section that both are in, 0
at the top. -/
structure Scope where
  line : Nat
  siblings : List Node
  sections : List Section

/-- The scope below a node with a section. -/
def Placed.scope? (p : Placed) : Option Scope :=
  p.node.boundTo?.map fun s => ⟨s.startLine, p.node.children, s.children⟩

/-- The scopes of a document: the top, and those below the nodes with a section. -/
def Binding.scopes (b : Binding) (d : Document) : List Scope :=
  ⟨0, b.roots, d.sections⟩ :: b.nodes.filterMap Placed.scope?

/-! ## Misplaced sections -/

/-- A node without a section, named by the line of its scope and its place there, and the section
found for it before the heading that it should follow. -/
structure Misplaced where
  line : Nat
  order : Nat
  expected : Element
  found : Section
  after : String

/-- A search for misplaced sections: the last one bound so far in a scope, what was found, and the
questions asked, the last one first. -/
structure Search where
  lastLine : Nat := 0
  lastText : String := ""
  found : List Misplaced := []
  asked : List Question := []

namespace Search

/-- The sections of a scope that may be claimed: they have no node, are not claimed yet, and begin
before the last one bound. -/
def claimable (b : Binding) (sections : List Section) (st : Search) : List Section :=
  sections.filter fun s =>
    !b.isBound s && !st.found.any (fun m => m.found.startLine == s.startLine) &&
      s.startLine < st.lastLine

/-- Goes on by one node of a scope. -/
def step (accepts : Accepts) (b : Binding) (scope : Scope) (st : Search) (n : Node) : Search :=
  match n.boundTo? with
  | some s =>
    if st.lastLine < s.startLine then
      { st with lastLine := s.startLine, lastText := s.heading.text }
    else st
  | none =>
    let candidates := claimable b scope.sections st
    let fits (s : Section) : Bool := accepts n.element.heading s.heading
    let looked := askedAmong fits (some 1) candidates
    let found := match candidates.find? fits with
      | some s => [⟨scope.line, n.order, n.element, s, st.lastText⟩]
      | none => []
    { st with
      found := st.found ++ found
      asked := (looked.map fun s => ⟨n.element.heading, s.heading⟩).reverse ++ st.asked }

/-- Goes on by the nodes of a scope. -/
def inScope (accepts : Accepts) (b : Binding) (st : Search) (scope : Scope) : Search :=
  scope.siblings.foldl (step accepts b scope) { st with lastLine := 0, lastText := "" }

end Search

/-- The search for misplaced sections in all scopes. -/
def searchMisplaced (accepts : Accepts) (b : Binding) (d : Document) : Search :=
  (b.scopes d).foldl (Search.inScope accepts b) {}

/-! ## Passes -/

/-- The first element expected below a heading, if it is required, and the first section there. -/
structure FirstPair where
  parent : String
  expected : Element
  found : Heading

/-- The pair of a scope. -/
def firstPair? (parent : String) (expected : List Element) (sections : List Section) :
    Option FirstPair :=
  match expected, sections with
  | e :: _, s :: _ => if e.isRequired then some ⟨parent, e, s.heading⟩ else none
  | _, _ => none

/-- The pairs of all scopes. -/
def firstPairs (b : Binding) (d : Document) (elements : List Element) : List FirstPair :=
  (firstPair? documentRoot elements d.sections).toList ++
    b.nodes.filterMap fun p =>
      p.node.boundTo?.bind fun s => firstPair? s.heading.text p.node.element.children s.children

/-- Sections that are not the first ones expected. -/
def wrongFirsts (accepts : Accepts) (pairs : List FirstPair) : List Finding :=
  (pairs.filter fun p => !accepts p.expected.heading p.found).map fun p =>
    .wrongFirst p.parent p.found p.expected

/-- Whether a section lies in one where additional sections are allowed. -/
def allowsAdditional (b : Binding) (p : PlacedSection) : Bool :=
  p.ancestors.any fun s =>
    match b.nodeOf? s with
    | some n => n.element.allowAdditional
    | none => false

/-- Sections that are not expected. -/
def unexpectedSections (b : Binding) (d : Document) : List Finding :=
  (d.placedSections.filter fun p => !b.isBound p.self && !allowsAdditional b p).map fun p =>
    .unexpected ((p.ancestors.head?.map (·.heading.text)).getD documentRoot) p.self.heading

/-- Whether a node is among the misplaced ones. -/
def Placed.isMisplaced (misplaced : List Misplaced) (p : Placed) : Bool :=
  let line := (p.parent?.bind Node.startLine?).getD 0
  misplaced.any fun m => m.line == line && m.order == p.node.order

/-- Required elements without a section, where the element above them has one. -/
def missingElements (b : Binding) (misplaced : List Misplaced) : List Finding :=
  (b.unboundNodes.filter fun p => !p.isMisplaced misplaced && p.ancestors.all Node.isBound).map
    fun p => .missing ((p.parent?.map Node.headingText).getD documentRoot) p.node.element p.location

/-- Repeatable elements with too few sections. -/
def tooFewSections (b : Binding) : List Finding :=
  (b.boundNodes.filter fun p =>
    p.node.element.isRepeatable && p.node.matchIndex == 0 &&
      p.node.matchCount < p.node.element.least.value).map fun p =>
    .tooFew p.node.element p.node.matchCount p.location

/-- Sections that should come later. -/
def misplacedSections (misplaced : List Misplaced) : List Finding :=
  misplaced.map fun m => .misplaced m.expected m.found.heading m.after

/-- All findings, in the order of the passes. -/
def structureFindings (accepts : Accepts) (b : Binding) (d : Document) (elements : List Element) :
    List Finding :=
  let misplaced := (searchMisplaced accepts b d).found
  wrongFirsts accepts (firstPairs b d elements) ++ unexpectedSections b d ++
    missingElements b misplaced ++ misplacedSections misplaced ++ tooFewSections b

/-- The questions that have to be answered for them, in order. -/
def structureQuestions (accepts : Accepts) (b : Binding) (d : Document) (elements : List Element) :
    List Question :=
  (searchMisplaced accepts b d).asked.reverse ++
    (firstPairs b d elements).map fun p => ⟨p.expected.heading, p.found⟩

/-! ## Words -/

namespace Finding

/-- The words for a finding. -/
def message : Finding → Except Fault String
  | .wrongFirst parent found expected =>
    .ok ("First heading under " ++ quoted parent ++ " is " ++ quoted found.written ++
      " but expected " ++ quoted expected.heading.display)
  | .unexpected parent found =>
    .ok ("Unexpected section " ++ quoted found.written ++ " found under " ++ quoted parent)
  | .missing parent expected _ =>
    .ok ("Required element " ++ quoted expected.heading.display ++ " not found within " ++
      quoted parent)
  | .misplaced _ found after =>
    .ok ("Element " ++ quoted found.text ++ " should appear after " ++ quoted after ++
      " but appears before it")
  | .tooFew expected found _ => do
    return "Element " ++ quoted expected.heading.display ++ " expected at least " ++
      (← expected.least.text) ++ " occurrence(s), found " ++ toString found

/-- Where a finding points. -/
def place : Finding → Nat × Nat
  | .wrongFirst _ found _ => (found.line, found.column)
  | .unexpected _ found => (found.line, found.column)
  | .missing _ _ place => place
  | .misplaced _ found _ => (found.line, found.column)
  | .tooFew _ _ place => place

/-- How grave a finding is. -/
def severity : Finding → Severity
  | .wrongFirst _ _ expected => expected.severity
  | .unexpected _ _ => .error
  | .missing _ expected _ => expected.severity
  | .misplaced expected _ _ => expected.severity
  | .tooFew expected _ _ => expected.severity

/-- A finding as a violation. -/
def violation (f : Finding) : Except Fault Violation := do
  return {
    rule := "structure"
    message := ← f.message
    line := f.place.1
    column := f.place.2
    severity := f.severity.text }

end Finding

end Outline

import Outline.Binding.Basic
import Outline.Rule.Structure

/-!
# Rules

A rule looks at a document and its schema and reports violations. What happens on the way is noted
in a journal, which survives a fault.

* `Notice`, `Journal`: what is noted;
* `Run`: a computation that notes things and may end in a fault;
* `Context`, `openContext`: a document, its schema, and what all rules use of both;
* `structureRule`: the rule on the structure of documents.
-/

namespace Outline

/-! ## Journals -/

/-- A line for the journal: whether it is for everyone or for those who look for details, the part
of the program that notes it, and the words. -/
structure Notice where
  urgent : Bool
  part : String
  text : String
deriving DecidableEq

/-- A request for the head of a page. -/
structure HeadRequest where
  address : String
  timeout : Amount

/-- What was noted, and what was requested, in order. -/
structure Journal where
  notices : List Notice := []
  requests : List HeadRequest := []

/-- A computation that notes things and may end in a fault. -/
abbrev Run (α : Type) := ExceptT Fault (StateM Journal) α

namespace Run

/-- Notes a line. -/
def note (urgent : Bool) (part text : String) : Run Unit :=
  modify fun j => { j with notices := j.notices ++ [⟨urgent, part, text⟩] }

/-- Notes a warning. -/
def warn (part text : String) : Run Unit := note true part text

/-- Notes a detail. -/
def debug (part text : String) : Run Unit := note false part text

/-- Notes a request. -/
def request (r : HeadRequest) : Run Unit :=
  modify fun j => { j with requests := j.requests ++ [r] }

/-- A result that may be a fault. -/
def lift {α : Type} (r : Except Fault α) : Run α :=
  match r with
  | .ok a => pure a
  | .error f => throw f

/-- The result and the journal. -/
def journal {α : Type} (r : Run α) : Except Fault α × Journal := (ExceptT.run r).run {}

end Run

/-! ## Contexts -/

/-- A document and its schema, the directory that rooted links start from, the nodes of the schema
for the document, the matcher behind the binding, and the anchors of the sections. -/
structure Context where
  document : Document
  schema : Schema
  rootDirectory : String
  binding : Binding
  matcher : Matcher
  anchors : List (String × Section)

/-- Whether a specification accepts a heading of the document. -/
def Context.accepts (c : Context) : Accepts := HeadingSpec.accepts c.document.path

/-- Has questions answered by a matcher. -/
def askAll (path : String) (m : Matcher) (questions : List Question) : Run Matcher := do
  let (fault, m, warnings) := m.askAll path questions
  warnings.forM (Run.warn "mdschema.pattern_matcher")
  match fault with
  | some f => throw f
  | none => return m

/-- Binds a schema to a document. -/
def openContext (d : Document) (schema : Schema) (rootDirectory : String) : Run Context := do
  let binding := bindDocument (HeadingSpec.accepts d.path) d schema.elements
  let matcher ← askAll d.path {} binding.asked
  Run.debug "mdschema.vast"
    ("Bound " ++ toString binding.boundNodes.length ++ " of " ++ toString binding.nodes.length ++
      " nodes, " ++ toString (binding.unmatched d).length ++ " unmatched sections")
  return ⟨d, schema, rootDirectory, binding, matcher, anchors d.allSections⟩

/-! ## Violations -/

/-- A violation of a rule, as grave as an error. -/
def reported (rule message : String) (place : Nat × Nat) : Violation :=
  { rule := rule, message := message, line := place.1, column := place.2 }

/-- The violations of the structure. -/
def structureRule (c : Context) : Run (List Violation) := do
  let _ ← askAll c.document.path c.matcher
    (structureQuestions c.accepts c.binding c.document c.schema.elements)
  let findings := structureFindings c.accepts c.binding c.document c.schema.elements
  Run.lift (findings.mapM Finding.violation)

end Outline

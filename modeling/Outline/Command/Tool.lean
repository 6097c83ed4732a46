import Outline.Command.Run

/-!
# Tools

Smaller programs beside the commands, each for one thing.

* `expressionTool`: evaluates an expression for the name of a file and a heading;
* `sectionsTool`: shows the sections of a document;
* `documentTool`: reports the violations of one document;
* `Program`, `Program.run`: all programs by name, with what they leave behind.
-/

namespace Outline

/-! ## Expressions -/

/-- How the tool for expressions is used. -/
def expressionUsage : String :=
  "Usage: expression.py <expression> <filename> [heading]\n\nExample:\n" ++
    "  expression.py 'slug(filename) == slug(heading)' getting-started \"Getting Started\"\n"

/-- Evaluates an expression for the name of a file and a heading of level 1. -/
def expressionTool : List String → Except Fault Outcome
  | source :: name :: rest =>
    match Expression.compile source with
    | .error (.token (.tooManyDigits n)) => .error (.tooManyDigits (some n))
    | .error e => .ok (.failed (e.message (strip source)))
    | .ok e => do
      if ← e.accepts name (rest.headD "") 1 then return .done "Result: True"
      else return { code := 1, output := "Result: False\n" }
  | _ => .ok { code := 1, output := expressionUsage }

/-! ## Sections -/

/-- How the tool for sections is used. -/
def sectionsUsage : String :=
  "Usage: markdown_parser.py <markdown_file>\n\nParses markdown file and displays the section tree.\n"

/-- A section in three lines, as deep as its level. -/
def Section.summary (s : Section) : String :=
  let indent := String.ofList (List.replicate (2 * (s.heading.level - 1)) ' ')
  let e := s.body.elements
  indent ++ s.heading.written ++ "\n" ++
    indent ++ "  Lines: " ++ toString s.startLine ++ "-" ++ toString s.body.endLine ++ "\n" ++
    indent ++ "  Code blocks: " ++ toString e.codeBlocks.length ++
      "  Tables: " ++ toString e.tables.length ++ "  Links: " ++ toString e.links.length ++
      "  Images: " ++ toString e.images.length ++ "  Lists: " ++ toString e.lists.length ++ "\n"

/-- The sections of a document. -/
def sectionsText (d : Document) : String :=
  "Found " ++ toString d.allSections.length ++ " sections:\n\n" ++
    String.join (d.allSections.map Section.summary)

section

variable {m : Type → Type} [Monad m] (files : FileReader m)

/-- The document in a file. -/
def readDocument (path : String) : Session m Document := do
  let text ← Session.ofExcept (← Session.ofFiles (readFileText files path))
  Session.ofExcept (parseDocument text path)

/-- Shows the sections of a document. -/
def sectionsTool : List String → Session m Outcome
  | path :: _ => do
    return { code := 0, output := sectionsText (← readDocument files path) }
  | [] => return { code := 1, output := sectionsUsage }

/-! ## Documents -/

/-- How the tool for documents is used. -/
def documentUsage : String := "Usage: rule_evaluator.py <document_path> <schema_path>\n"

/-- What is found wrong with a document. -/
def documentOutcome (path : String) (violations : List Violation) : Outcome :=
  if violations.isEmpty then .done ("Validation passed: " ++ path)
  else
    { code := 1
      output := "Validation failed with " ++ toString violations.length ++ " violation(s):\n\n" ++
        String.join (violations.map fun v => v.console ++ "\n\n") }

/-- Reports the violations of one document. -/
def documentTool (web : Web) : List String → Session m Outcome
  | path :: schemaPath :: _ => do
    let path := (PlainPath.read path).text
    match ← readSchema files schemaPath with
    | .error f => return { code := 2, output := "Error loading schema: " ++ f.message ++ "\n" }
    | .ok schema =>
      let d ← readDocument files path
      return documentOutcome path (← evaluateIn files web schema d)
  | _ => return { code := 1, output := documentUsage }

end

/-! ## Programs -/

/-- The programs. -/
inductive Program where
  | commands
  | expression
  | sections
  | document
deriving DecidableEq

/-- The program with a name; every other name is one for the commands. -/
def Program.ofName : String → Program
  | "expression" => .expression
  | "markdown_parser" => .sections
  | "rule_evaluator" => .document
  | _ => .commands

/-- How a program ends: with an outcome, without having been started, or in a fault. -/
inductive Ending where
  | finished (o : Outcome)
  | stopped (s : Command.Stop)
  | broken (f : Fault)
deriving DecidableEq

/-- What a session leaves behind, and the lines of its journal. -/
def Session.ending {m : Type → Type} [Monad m] (verbose : Bool) (s : Session m Outcome) :
    m (Ending × String) := do
  let (result, journal) ← s.journal
  let ending := match result with
    | .ok o => .finished o
    | .error f => .broken f
  return (ending, logLines verbose journal)

/-- What a program does with its arguments. The tools keep no log. -/
def Program.run {m : Type → Type} [Monad m] (files : FileSystem m) (web : Web) (p : Program)
    (arguments : List String) : m (Ending × String) := do
  let tool (s : Session m Outcome) : m (Ending × String) := do
    return ((← s.ending false).1, "")
  match p with
  | .expression => tool (Session.ofExcept (expressionTool arguments))
  | .sections => tool (sectionsTool files.toFileReader arguments)
  | .document => tool (documentTool files.toFileReader web arguments)
  | .commands =>
    match readInvocation arguments with
    | .error s => return (.stopped s, "")
    | .ok invocation => (invocation.command.run files web).ending invocation.verbose

end Outline

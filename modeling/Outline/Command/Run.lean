import Outline.Command.Basic
import Outline.Document.Build
import Outline.Document.Sketch
import Outline.Files.Documents
import Outline.Report.Format
import Outline.Schema.Find
import Outline.Schema.Published
import Outline.Template.Basic

/-!
# Running commands

* `Outcome`: what a command leaves behind: a code, and what it prints;
* `starterSchema`: the text of a schema to begin with;
* `Command.run`: what a command does, on any system of files and any web;
* `logLines`: the journal as it is printed.
-/

namespace Outline

/-- What a command leaves behind: its code, the text that it prints, and what it says about
errors. -/
structure Outcome where
  code : Nat
  output : String := ""
  errors : String := ""
deriving DecidableEq

namespace Outcome

/-- A line is printed, and all is well. -/
def done (line : String) : Outcome := { code := 0, output := line ++ "\n" }

/-- A line about an error. -/
def failed (line : String) : Outcome := { code := 2, errors := "Error: " ++ line ++ "\n" }

end Outcome

/-! ## Writing -/

/-- The text of a schema for the introduction to a project. -/
def starterSchema : String :=
  "# Markdown schema configuration
# Validate documents with: mdschema check <files>

structure:
  - heading: \x7bpattern: '# [a-zA-Z0-9_\\- ]+'\x7d
    children:
      - heading: \"## Features\"
        optional: true
      - heading: \"## Installation\"
        children:
          - heading: \"### Windows\"
            optional: true
          - heading: \"### macOS\"
            optional: true
        code_blocks:
          - \x7blang: bash, min: 1\x7d
      - heading: \"## Usage\"
        code_blocks:
          - \x7blang: python, min: 1\x7d
  - heading: \"# LICENSE\"
    optional: true
"

/-- A path that cannot be used, and why. -/
structure FileFailure where
  path : PlainPath
  cause : FileError

/-- The words for a path that cannot be used. -/
def FileFailure.message (f : FileFailure) : String := f.cause.message f.path.text

section

variable {m : Type → Type} [Monad m] (files : FileSystem m)

/-- Makes a directory in one that exists, unless it exists itself. -/
def makeDirectory (p : PlainPath) : m (Except FileFailure Unit) := do
  match ← files.makeDirectory p.text with
  | .ok () => return .ok ()
  | .error e => if ← files.isDirectory p.text then return .ok () else return .error ⟨p, e⟩

/-- Makes a directory and those above it that are missing, so many at most. -/
def makeDirectories : (above : Nat) → PlainPath → m (Except FileFailure Unit)
  | 0, p => makeDirectory files p
  | above + 1, p => do
    match ← files.makeDirectory p.text with
    | .ok () => return .ok ()
    | .error .missing =>
      match ← makeDirectories above p.parent with
      | .ok () => makeDirectory files p
      | .error f => return .error f
    | .error e => if ← files.isDirectory p.text then return .ok () else return .error ⟨p, e⟩

/-- Sets the text of a file. -/
def writeFile (p : PlainPath) (text : String) : m (Except FileFailure Unit) := do
  match ← files.write p.text text with
  | .ok () => return .ok ()
  | .error e => return .error ⟨p, e⟩

/-- Sets the text of a file and makes the directories on the way to it. -/
def writeWithDirectories (p : PlainPath) (text : String) : m (Except FileFailure Unit) := do
  match ← makeDirectories files p.parent.steps.length p.parent with
  | .ok () => writeFile files p text
  | .error f => return .error f

/-- A text with a line break at its end. -/
def withLineBreak (text : String) : String :=
  if text.toList.getLast? == some '\n' then text else text ++ "\n"

/-- Writes a text to a file, or prints it. -/
def deliver (text : String) (output : Option String) (line : String → String) :
    Session m Outcome := do
  match output with
  | none => return { code := 0, output := withLineBreak text }
  | some path =>
    match ← Session.ofFiles (writeWithDirectories files (.read path) text) with
    | .ok () => return .done (line path)
    | .error f => return .failed ("cannot write " ++ path ++ ": " ++ f.message)

/-! ## Commands -/

/-- Goes on with a schema, if there is one. -/
def withSchema (path : Option String) (next : Schema → Session m Outcome) : Session m Outcome := do
  match ← chooseSchema files.toFileReader path with
  | .ok schema => next schema
  | .error f => return .failed f.message

/-- Goes on with the text of a file, if it can be read. -/
def withText (path : String) (next : String → Session m Outcome) : Session m Outcome := do
  match ← Session.ofFiles (readFileText files.toFileReader path) with
  | .ok text => next text
  | .error f => return .failed ("cannot read " ++ path ++ ": " ++ f.message?.getD "")

/-- Reports violations. -/
def reportOutcome (format : ReportFormat) (documents : Nat) (violations : List Violation) :
    Outcome :=
  let sorted := violations.mergeSort Violation.le
  let report := match format with
    | .text => reportText sorted documents
    | .json => reportJson sorted documents
  { code := if violations.isEmpty then 0 else 1, output := report ++ "\n" }

/-- Goes on with the violations of documents, if all can be read. -/
def withViolations (web : Web) (schema : Schema) :
    List PlainPath → (List Violation → Session m Outcome) → Session m Outcome
  | [], next => next []
  | p :: ps, next => do
    Session.debug "mdschema.validate" ("Checking " ++ p.text)
    withText files p.text fun text => do
      let d ← Session.ofExcept (parseDocument text p.text)
      let here ← evaluateIn files.toFileReader web schema d
      withViolations web schema ps fun rest => next (here ++ rest)

/-- Reports the violations of documents. -/
def checkDocuments (web : Web) (patterns : List String) (path : Option String) (format : ReportFormat) :
    Session m Outcome :=
  withSchema files path fun schema => do
    match ← Session.ofFiles (findDocuments files.toFileReader patterns) with
    | .error missing => return .failed (noSuchPath missing)
    | .ok [] => return .failed "no markdown files matched"
    | .ok documents =>
      withViolations files web schema documents fun violations =>
        return reportOutcome format documents.length violations

/-- Loads a schema. -/
def lintSchema (path : Option String) : Session m Outcome :=
  withSchema files path fun schema =>
    return .done ("Schema is valid: " ++ schema.source ++ " (" ++
      toString schema.elements.length ++ " top-level element(s))")

/-- Writes the starter schema to a directory, unless there is a schema. -/
def startSchema (directory : String) : Session m Outcome := do
  let path := (PlainPath.read directory).below (schemaNames.headD "")
  if ← Session.ofFiles (files.leads path.text) then
    return .done ("Schema file already exists at " ++ path.text)
  match ← Session.ofFiles (writeFile files path starterSchema) with
  | .error f => return .failed ("cannot create " ++ path.text ++ ": " ++ f.message)
  | .ok () =>
    Session.debug "mdschema.generator" ("Wrote default schema to " ++ path.text)
    return .done ("Created " ++ path.text ++ " with default configuration")

/-- Writes a template for a schema. -/
def generateTemplate (path output : Option String) : Session m Outcome :=
  withSchema files path fun schema => do
    let text ← Session.ofExcept (template schema)
    deliver files text output fun path => "Generated markdown template at " ++ path

/-- Writes a schema for a document. -/
def deriveSchema (path : String) (output : Option String) : Session m Outcome :=
  withText files path fun text => do
    let d ← Session.ofExcept (parseDocument text path)
    match d.sketch? with
    | none => return .failed (path ++ ": " ++ noHeadings)
    | some sketches =>
      deliver files (Sketch.textOf sketches) output fun path => "Derived schema written to " ++ path

/-- Writes the format of schemas. -/
def publishFormat (output : Option String) : Session m Outcome :=
  deliver files (Json.pretty 0 publishedFormat ++ "\n") output fun path =>
    "JSON Schema written to " ++ path

/-- What a command does. -/
def Command.run (web : Web) : Command → Session m Outcome
  | .check patterns schema format => checkDocuments files web patterns schema format
  | .lint schema => lintSchema files schema
  | .start directory => startSchema files directory
  | .generate schema output => generateTemplate files schema output
  | .derive document output => deriveSchema files document output
  | .publish output => publishFormat files output

end

/-! ## Journals -/

/-- A notice as it is printed. -/
def Notice.line (n : Notice) : String :=
  (if n.urgent then "WARNING " else "DEBUG ") ++ n.part ++ ": " ++ n.text

/-- The notices of a journal as they are printed: all of them, or those for everyone. -/
def logLines (verbose : Bool) (j : Journal) : String :=
  String.join ((j.notices.filter fun n => verbose || n.urgent).map fun n => n.line ++ "\n")

end Outline

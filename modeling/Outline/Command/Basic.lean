import Outline.Command.Arguments

/-!
# Commands

* `Command`: what the program can do;
* `Invocation`, `readInvocation`: what a command line asks for.
-/

namespace Outline

/-- The formats of reports. -/
inductive ReportFormat where
  | text
  | json
deriving DecidableEq

/-- What the program can do. A schema that is not named is looked for, and what is not written to a
file is printed. -/
inductive Command where
  /-- Reports the violations of documents. -/
  | check (patterns : List String) (schema : Option String) (format : ReportFormat)
  /-- Loads a schema. -/
  | lint (schema : Option String)
  /-- Writes the starter schema to a directory. -/
  | start (directory : String)
  /-- Writes a template for a schema. -/
  | generate (schema : Option String) (output : Option String)
  /-- Writes a schema for a document. -/
  | derive (document : String) (output : Option String)
  /-- Writes the format of schemas. -/
  | publish (output : Option String)
deriving DecidableEq

/-- A command, and whether details are told on the way. -/
structure Invocation where
  verbose : Bool
  command : Command
deriving DecidableEq

namespace Command

/-- The options of every command. -/
def helpOptions : List (String × Setting) := [("-h", .help), ("--help", .help)]

/-- The arguments of the program: a command with its own arguments. -/
def programGrammar : Grammar :=
  ⟨helpOptions ++ [("--verbose", .verbose), ("-v", .verbose)], .command⟩

/-- The option for the file of the output. -/
def outputOptions : List (String × Setting) := [("--output", .output), ("-o", .output)]

/-- The arguments of the command with a name. -/
def grammarOf? : String → Option Grammar
  | "check" =>
    some ⟨helpOptions ++ [("--schema", .schema), ("-s", .schema), ("--format", .format),
      ("-f", .format)], .many⟩
  | "lint-schema" | "init" => some ⟨helpOptions, .optional⟩
  | "generate" => some ⟨helpOptions ++ outputOptions, .optional⟩
  | "derive" => some ⟨helpOptions ++ outputOptions, .one⟩
  | "schema" => some ⟨helpOptions ++ outputOptions, .none⟩
  | _ => none

/-- A text, unless it is empty. -/
def nonempty? (text : String) : Option String := if text.isEmpty then none else some text

/-- The command with a name and what its arguments say. -/
def ofParsed? (name : String) (p : Grammar.Parsed) : Option Command :=
  let operands := p.operands.getD []
  let given := operands.head?.bind nonempty?
  match name with
  | "check" =>
    some (.check operands (p.last? .schema) (if p.last? .format = some "json" then .json else .text))
  | "lint-schema" => some (.lint given)
  | "init" => some (.start (operands.headD "."))
  | "generate" => some (.generate given (p.last? .output))
  | "derive" => some (.derive (operands.headD "") (p.last? .output))
  | "schema" => some (.publish (p.last? .output))
  | _ => none

end Command

open Command in
/-- What a command line asks for. -/
def readInvocation (arguments : List String) : Except Stop Invocation := do
  let outer ← programGrammar.parse arguments
  match outer.operands with
  | some (name :: rest) =>
    match grammarOf? name with
    | none => throw .usage
    | some g =>
      let inner ← g.parse rest
      if outer.leftOver || inner.leftOver then throw .usage
      match ofParsed? name inner with
      | some command => return ⟨outer.settings.any (·.1 = .verbose), command⟩
      | none => throw .usage
  | _ => throw .usage

end Outline

import Outline.Path
import Outline.Rule.Content
import Outline.Rule.FrontMatter
import Outline.Rule.Heading
import Outline.Rule.Link

/-!
# Evaluation

All rules on one document, in their order.

* `Rule`, `Rule.check`: the rules by name;
* `rootDirectoryOf`: the directory that rooted links start from;
* `evaluate`: the violations of a document, which carry its path.
-/

namespace Outline

/-- The rules. -/
inductive Rule where
  | sections
  | requiredText
  | forbiddenText
  | codeBlock
  | image
  | table
  | list
  | wordCount
  | heading
  | link
  | frontMatter
deriving DecidableEq

namespace Rule

/-- All rules, in their order. -/
def all : List Rule :=
  [.sections, .requiredText, .forbiddenText, .codeBlock, .image, .table, .list, .wordCount,
    .heading, .link, .frontMatter]

/-- The name of a rule. -/
def name : Rule → String
  | .sections => "structure"
  | .requiredText => "required-text"
  | .forbiddenText => "forbidden-text"
  | .codeBlock => "codeblock"
  | .image => "image"
  | .table => "table"
  | .list => "list"
  | .wordCount => "word-count"
  | .heading => "heading"
  | .link => "link"
  | .frontMatter => "frontmatter"

/-- The rule with a name. -/
def ofName? (s : String) : Option Rule := all.find? (·.name == s)

/-- The violations of a rule. -/
def check (around : Surroundings) (c : Context) : Rule → Run (List Violation)
  | .sections => structureRule c
  | .requiredText => requiredTextRule c
  | .forbiddenText => forbiddenTextRule c
  | .codeBlock => codeBlockRule c
  | .image => imageRule c
  | .table => tableRule c
  | .list => listRule c
  | .wordCount => wordCountRule c
  | .heading => headingRule c
  | .link => linkRule around c
  | .frontMatter => frontMatterRule c

end Rule

/-- The directory that rooted links start from: the one that is given, or that of the file of the
schema. -/
def rootDirectoryOf (given : Option String) (schema : Schema) : String :=
  match given with
  | some directory => directory
  | none =>
    if schema.source.isEmpty || schema.source == "<string>" then ""
    else (PlainPath.read schema.source).parent.text

/-- The violations of one rule in a document. -/
def checkRule (around : Surroundings) (c : Context) (r : Rule) : Run (List Violation) := do
  let found ← r.check around c
  if !found.isEmpty then
    Run.debug "mdschema.rule_evaluator" (c.document.path ++ ": rule " ++ r.name ++ " reported " ++
      toString found.length ++ " violation(s)")
  return found

/-- The violations of all rules in a document. -/
def evaluate (around : Surroundings) (schema : Schema) (rootDirectory : String) (d : Document) :
    Run (List Violation) := do
  let c ← openContext d schema rootDirectory
  let found ← Rule.all.mapM (checkRule around c)
  return found.flatten.map (·.withPath d.path)

end Outline

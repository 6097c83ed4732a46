import Outline.Report.Format
import Outline.Schema.Format

/-!
# The published format of schemas

The format of schemas as a JSON Schema, which editors use to check schema files. Forms that occur in
several places, or that have a description, are definitions of their own, which the others refer to.

* `Form.json`: a form as a JSON Schema;
* `definitions`: the forms with names;
* `publishedFormat`: the whole.
-/

namespace Outline

/-- A reference to a definition. -/
def reference (name : String) : Json := .object [("$ref", .text ("#/definitions/" ++ name))]

/-- A list whose items have a form. -/
def listJson (items : Json) : Json := .object [("type", .text "array"), ("items", items)]

/-- The definition that a member with this name has as its form. -/
def memberDefinition? : String → Option String
  | "heading" => some "headingPattern"
  | "count" => some "countConstraint"
  | "links" => some "linkRules"
  | "heading_rules" => some "headingRules"
  | "frontmatter" => some "frontmatter"
  | _ => none

/-- The definition that the items of a member with this name have as their form. -/
def itemDefinition? : String → Option String
  | "required_text" | "forbidden_text" => some "textPattern"
  | _ => none

mutual

/-- A form as a JSON Schema. Counts and elements are definitions. -/
def Form.json : Form → Json
  | .text least choices =>
    .object (("type", .text "string") ::
      (if least = 0 then [] else [("minLength", .number least)]) ++
      (if choices.isEmpty then [] else [("enum", .texts choices)]))
  | .truth => .object [("type", .text "boolean")]
  | .whole 0 none => reference "nonNegativeInt"
  | .whole least most =>
    .object ([("type", .text "integer"), ("minimum", .number least)] ++
      (match most with
        | some n => [("maximum", .number n)]
        | none => []))
  | .values least => .object [("type", .text "array"), ("minItems", .number least)]
  | .list item => listJson item.json
  | .elements => listJson (reference "structureElement")
  | .record members required =>
    .object ([("type", .text "object"), ("properties", .object (membersJson members))] ++
      (if required.isEmpty then [] else [("required", .texts required)]) ++
      [("additionalProperties", .truth false)])
  | .oneOf options => .object [("oneOf", .list (optionsJson options))]

/-- The members of a mapping as JSON Schemas. -/
def membersJson : List (String × Form) → List (String × Json)
  | [] => []
  | (name, form) :: rest =>
    let here := match memberDefinition? name, itemDefinition? name with
      | some definition, _ => reference definition
      | none, some definition => listJson (reference definition)
      | none, none => form.json
    (name, here) :: membersJson rest

/-- Alternatives as JSON Schemas. -/
def optionsJson : List Form → List Json
  | [] => []
  | form :: rest => form.json :: optionsJson rest

end

/-- A JSON Schema with a description, which follows the type. -/
def described (description : String) : Json → Json
  | .object (("type", type) :: members) =>
    .object (("type", type) :: ("description", .text description) :: members)
  | .object members => .object (("description", .text description) :: members)
  | json => json

/-- The forms with names. -/
def definitions : List (String × Json) :=
  [("nonNegativeInt", .object [("type", .text "integer"), ("minimum", .number 0)]),
    ("headingPattern", described
      "Literal heading ('## Features'), or \x7bpattern: regex\x7d, or \x7bexpr: expression\x7d"
      headingForm.json),
    ("textPattern", described "Substring ('TODO') or \x7bpattern: regex\x7d"
      textPatternForm.json),
    ("countConstraint", described "Occurrence constraints; max 0 means unlimited"
      (Form.record boundsMembers []).json),
    ("structureElement", described "Heading shorthand string or a structure element object"
      elementForm.json),
    ("linkRules", linkRulesForm.json),
    ("headingRules", headingRulesForm.json),
    ("frontmatter", frontMatterForm.json)]

/-- The members of a schema as JSON Schemas; the first one is described. -/
def schemaMembers : List (String × Json) :=
  [("structure", described "Document structure: required/optional sections and their rules"
      Form.elements.json),
    ("links", reference "linkRules"),
    ("heading_rules", reference "headingRules"),
    ("frontmatter", reference "frontmatter")]

/-- The format of schemas. -/
def publishedFormat : Json :=
  .object
    [("$schema", .text "http://json-schema.org/draft-07/schema#"),
      ("$id", .text "https://mdschema.dev/schema.json"),
      ("title", .text "mdschema schema file"),
      ("description", .text "Validation rules for Markdown documents (.mdschema.yml)"),
      ("type", .text "object"),
      ("properties", .object schemaMembers),
      ("additionalProperties", .truth false),
      ("definitions", .object definitions)]

end Outline

import Outline.Schema.Basic
import Outline.Schema.Form

/-!
# The format of schemas

* `elementForm`: the form of an expected heading;
* `schemaForm`: the form of a schema;
* `schemaFlaws`: the flaws of a value that should be a schema.
-/

namespace Outline

/-- A count: a whole number that is not negative. -/
def countForm : Form := .whole 0 none

/-- Bounds of a count. -/
def boundsMembers : List (String × Form) := [("min", countForm), ("max", countForm)]

/-- A text that is not empty. -/
def someText : Form := .text 1 []

/-- Any text. -/
def anyText : Form := .text 0 []

/-- A mapping with one text at a key. -/
def oneKeyForm (key : String) : Form := .record [(key, someText)] [key]

/-- A specification of headings. -/
def headingForm : Form := .oneOf [someText, oneKeyForm "pattern", oneKeyForm "expr"]

/-- A text pattern. -/
def textPatternForm : Form := .oneOf [someText, oneKeyForm "pattern"]

/-- An expected heading that is given with its requirements. -/
def elementRecord : Form :=
  .record
    [("heading", headingForm),
      ("description", anyText),
      ("optional", .truth),
      ("count", .record boundsMembers []),
      ("severity", .text 0 (Severity.all.map Severity.text)),
      ("allow_additional", .truth),
      ("children", .elements),
      ("required_text", .list textPatternForm),
      ("forbidden_text", .list textPatternForm),
      ("code_blocks", .list (.record (("lang", anyText) :: boundsMembers) [])),
      ("images", .list (.record
        (boundsMembers ++ [("require_alt", .truth), ("formats", .list anyText)]) [])),
      ("tables", .list (.record
        (boundsMembers ++ [("min_columns", countForm), ("required_headers", .list anyText)]) [])),
      ("lists", .list (.record
        (boundsMembers ++ [("type", .text 0 ([ListKind.ordered, .unordered].map ListKind.text)),
          ("min_items", countForm)]) [])),
      ("word_count", .record boundsMembers [])]
    ["heading"]

/-- An expected heading: its text, or a mapping. -/
def elementForm : Form := .oneOf [someText, elementRecord]

/-- The requirements on links. -/
def linkRulesForm : Form :=
  .record
    [("validate_internal", .truth),
      ("validate_files", .truth),
      ("validate_external", .truth),
      ("external_timeout", .whole 1 none),
      ("allowed_domains", .list anyText),
      ("blocked_domains", .list anyText)]
    []

/-- The requirements on headings. -/
def headingRulesForm : Form :=
  .record
    [("no_skip_levels", .truth),
      ("unique", .truth),
      ("unique_per_level", .truth),
      ("max_depth", .whole 1 (some 6))]
    []

/-- A field of front matter. -/
def fieldForm : Form :=
  .record
    [("name", someText),
      ("optional", .truth),
      ("type", .text 0 (FieldType.all.map FieldType.text)),
      ("format", .text 0 (FieldFormat.all.map FieldFormat.text)),
      ("enum", .values 1),
      ("pattern", anyText)]
    ["name"]

/-- The requirements on front matter. -/
def frontMatterForm : Form := .record [("optional", .truth), ("fields", .list fieldForm)] []

/-- A schema. -/
def schemaForm : Form :=
  .record
    [("structure", .elements),
      ("links", linkRulesForm),
      ("heading_rules", headingRulesForm),
      ("frontmatter", frontMatterForm)]
    []

/-- The flaws of a value that should be a schema. -/
def schemaFlaws (v : Value) : Flaws := v.flaws elementForm schemaForm

end Outline

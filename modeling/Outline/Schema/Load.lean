import Outline.Schema.Format
import Outline.Yaml.Load

/-!
# Loading schemas

A value is checked against the form of schemas first; a value of that form is then read off.

* `Reading`: reading members of a mapping, where a value of the wrong kind is refused;
* `Element.ofValue`, `Schema.ofValue`: what a value of the right form says;
* `loadSchema`: the schema that a value gives;
* `loadSchemaText`: the schema that a YAML text gives;
* `LoadError`: why there is none, and the words for it.
-/

namespace Outline

/-- Why a schema could not be loaded. -/
inductive LoadError where
  /-- The value has flaws. -/
  | flawed (flaws : List Flaw)
  /-- An expression does not compile. -/
  | expression (source : String) (e : ExprError)
  /-- The text is no YAML. -/
  | notYaml
  /-- The file cannot be read. -/
  | unreadable (why : String)
  /-- There is no file; the words say where one was looked for. -/
  | notFound (words : String)
  /-- The value is not of the form that it was checked against. -/
  | wrongForm
  /-- Something that is not about schemas. -/
  | fault (f : Fault)

namespace LoadError

/-- The single flaws, as messages. -/
def details : LoadError → List String
  | .flawed flaws => flawMessages flaws
  | _ => []

/-- What went wrong, in short. -/
def summary : LoadError → String
  | .flawed _ => "invalid schema"
  | .expression source e => e.message source
  | .notYaml => "YAML syntax error"
  | .unreadable why => "cannot read schema file: " ++ why
  | .notFound words => words
  | .wrongForm => "invalid schema"
  | .fault f => f.message?.getD ""

/-- The words for an error in the schema from the given source. -/
def message (source : String) (e : LoadError) : String :=
  (if source.isEmpty then "" else source ++ ": ") ++ e.summary ++
    String.join (e.details.map ("\n  - " ++ ·))

end LoadError

/-- What can be read off a value. -/
abbrev Reading := Except LoadError

/-! ## Members of mappings -/

/-- A truth value. -/
def readTruth : Value → Reading Bool
  | .bool b => .ok b
  | _ => .error .wrongForm

/-- A text. -/
def readText : Value → Reading String
  | .str s => .ok s
  | _ => .error .wrongForm

/-- A word that names a thing. -/
def readWord {α : Type} (named : String → Option α) : Value → Reading α
  | .str s => match named s with
    | some a => .ok a
    | none => .error .wrongForm
  | _ => .error .wrongForm

/-- An amount. -/
def readAmount (v : Value) : Reading Amount :=
  match Amount.ofValue? v with
  | some a => .ok a
  | none => .error .wrongForm

/-- A list of values. -/
def readItems : Value → Reading (List Value)
  | .list items => .ok items
  | _ => .error .wrongForm

/-- A list of things. -/
def readList {α : Type} (read : Value → Reading α) (v : Value) : Reading (List α) := do
  (← readItems v).mapM read

/-- Refuses a value that is no mapping. -/
def readMapping : Value → Reading Unit
  | .map _ => .ok ()
  | _ => .error .wrongForm

/-- Refuses a value that is no mapping, or one with a key that is none of the names. -/
def readNames (names : List String) : Value → Reading Unit
  | .map entries =>
    if entries.all fun e => isNamed names e.1 then .ok () else .error .wrongForm
  | _ => .error .wrongForm

/-- The thing at a key of a mapping; a default where there is none. -/
def readMember {α : Type} (v : Value) (key : String) (read : Value → Reading α) (default : α) :
    Reading α :=
  match v.get? key with
  | some member => read member
  | none => .ok default

/-! ## Requirements on sections -/

/-- Bounds of a count. -/
def readBounds (v : Value) : Reading Bounds := do
  return { min := ← readMember v "min" readAmount 0, max := ← readMember v "max" readAmount 0 }

/-- Bounds of a count, and nothing else. -/
def readCount (v : Value) : Reading Bounds := do
  readNames ["min", "max"] v
  readBounds v

/-- A text pattern. -/
def readTextPattern : Value → Reading TextPattern
  | .str s => .ok (.literal s)
  | v => match v.get? "pattern" with
    | some p => do return .pattern (← readText p)
    | none => .error .wrongForm

/-- The number of blocks of code. -/
def readCodeBlockRule (v : Value) : Reading CodeBlockRule := do
  readNames ["lang", "min", "max"] v
  return { bounds := ← readBounds v, lang := ← readMember v "lang" readText "" }

/-- The number of images. -/
def readImageRule (v : Value) : Reading ImageRule := do
  readNames ["min", "max", "require_alt", "formats"] v
  return {
    bounds := ← readBounds v
    requireAlt := ← readMember v "require_alt" readTruth false
    formats := ← readMember v "formats" (readList readText) [] }

/-- The number of tables. -/
def readTableRule (v : Value) : Reading TableRule := do
  readNames ["min", "max", "min_columns", "required_headers"] v
  return {
    bounds := ← readBounds v
    minColumns := ← readMember v "min_columns" readAmount 0
    requiredHeaders := ← readMember v "required_headers" (readList readText) [] }

/-- The kind that a word names. -/
def ListKind.ofText? (s : String) : Option ListKind :=
  [ListKind.ordered, .unordered].find? (·.text == s)

/-- The number of lists. -/
def readListRule (v : Value) : Reading ListRule := do
  readNames ["min", "max", "type", "min_items"] v
  return {
    bounds := ← readBounds v
    kind := ← readMember v "type" (fun w => some <$> readWord ListKind.ofText? w) none
    minItems := ← readMember v "min_items" readAmount 0 }

/-- The requirements on a section. -/
def readSectionRules (v : Value) : Reading SectionRules := do
  return {
    requiredText := ← readMember v "required_text" (readList readTextPattern) []
    forbiddenText := ← readMember v "forbidden_text" (readList readTextPattern) []
    codeBlocks := ← readMember v "code_blocks" (readList readCodeBlockRule) []
    images := ← readMember v "images" (readList readImageRule) []
    tables := ← readMember v "tables" (readList readTableRule) []
    lists := ← readMember v "lists" (readList readListRule) []
    wordCount := ← readMember v "word_count" (fun w => some <$> readCount w) none }

/-! ## Expected headings -/

/-- The specification that an expression gives. -/
def HeadingSpec.ofExpression (source : String) : Reading HeadingSpec :=
  match Expression.compile source with
  | .ok e => .ok (.expr source e)
  | .error (.token (.tooManyDigits n)) => .error (.fault (.tooManyDigits (some n)))
  | .error e => .error (.expression (strip source) e)

/-- A specification of headings; the blanks around a text do not count. -/
def HeadingSpec.ofValue : Value → Reading HeadingSpec
  | .str s => .ok (.literal (strip s))
  | v => match v.get? "expr", v.get? "pattern" with
    | some e, _ => do HeadingSpec.ofExpression (← readText e)
    | none, some p => do return .pattern (← readText p)
    | none, none => .error .wrongForm

mutual

/-- An expected heading. -/
def Element.ofValue : Value → Reading Element
  | .str s => .ok { heading := .literal (strip s) }
  | .map entries => do
    let v := Value.map entries
    let heading ← match v.get? "heading" with
      | some h => HeadingSpec.ofValue h
      | none => .error .wrongForm
    return {
      heading := heading
      optional := ← readMember v "optional" readTruth false
      count := ← readMember v "count" (fun w => some <$> readCount w) none
      severity := ← readMember v "severity" (readWord Severity.ofText?) .error
      allowAdditional := ← readMember v "allow_additional" readTruth false
      children := ← childrenOfEntries entries
      rules := ← readSectionRules v
      description := ← readMember v "description" readText "" }
  | _ => .error .wrongForm

/-- The expected headings at the key `children`. -/
def childrenOfEntries : List (Value × Value) → Reading (List Element)
  | [] => .ok []
  | (key, value) :: rest =>
    if isNamed ["children"] key then elementsOfValue value else childrenOfEntries rest

/-- A list of expected headings. -/
def elementsOfValue : Value → Reading (List Element)
  | .list items => elementsOfItems items
  | _ => .error .wrongForm

/-- Expected headings in a row. -/
def elementsOfItems : List Value → Reading (List Element)
  | [] => .ok []
  | v :: vs => do
    let e ← Element.ofValue v
    let es ← elementsOfItems vs
    return e :: es

end

/-! ## Requirements on documents -/

/-- The requirements on links. -/
def readLinkRules (v : Value) : Reading LinkRules := do
  readNames ["validate_internal", "validate_files", "validate_external", "external_timeout",
    "allowed_domains", "blocked_domains"] v
  return {
    validateInternal := ← readMember v "validate_internal" readTruth false
    validateFiles := ← readMember v "validate_files" readTruth false
    validateExternal := ← readMember v "validate_external" readTruth false
    externalTimeout := ← readMember v "external_timeout" readAmount 10
    allowedDomains := ← readMember v "allowed_domains" (readList readText) []
    blockedDomains := ← readMember v "blocked_domains" (readList readText) [] }

/-- The requirements on headings. -/
def readHeadingRules (v : Value) : Reading HeadingRules := do
  readNames ["no_skip_levels", "unique", "unique_per_level", "max_depth"] v
  return {
    noSkipLevels := ← readMember v "no_skip_levels" readTruth false
    unique := ← readMember v "unique" readTruth false
    uniquePerLevel := ← readMember v "unique_per_level" readTruth false
    maxDepth := ← readMember v "max_depth" readAmount 0 }

/-- A field of front matter. -/
def readFieldRule (v : Value) : Reading FieldRule := do
  readNames ["name", "optional", "type", "format", "enum", "pattern"] v
  let name ← match v.get? "name" with
    | some n => readText n
    | none => .error .wrongForm
  return {
    name := name
    optional := ← readMember v "optional" readTruth false
    type := ← readMember v "type" (fun w => some <$> readWord FieldType.ofText? w) none
    format := ← readMember v "format" (fun w => some <$> readWord FieldFormat.ofText? w) none
    choices := ← readMember v "enum" readItems []
    pattern := ← readMember v "pattern" readText "" }

/-- The requirements on front matter. -/
def readFrontMatterRules (v : Value) : Reading FrontMatterRules := do
  readMapping v
  return {
    optional := ← readMember v "optional" readTruth false
    fields := ← readMember v "fields" (readList readFieldRule) [] }

/-- A schema of the right form. -/
def Schema.ofValue (v : Value) (source : String) : Reading Schema := do
  readMapping v
  return {
    elements := ← readMember v "structure" elementsOfValue []
    links := ← readMember v "links" (fun w => some <$> readLinkRules w) none
    headings := ← readMember v "heading_rules" (fun w => some <$> readHeadingRules w) none
    frontMatter := ← readMember v "frontmatter" (fun w => some <$> readFrontMatterRules w) none
    source := source }

/-- The schema that a value gives; no value at all is an empty schema. -/
def loadSchema (v : Value) (source : String) : Reading Schema :=
  let v := match v with
    | .null => .map []
    | v => v
  match schemaFlaws v with
  | .error f => .error (.fault f)
  | .ok [] => Schema.ofValue v source
  | .ok flaws => .error (.flawed flaws)

/-- The schema that a YAML text gives. -/
def loadSchemaText (text source : String) : Reading Schema :=
  match Yaml.load text with
  | .ok v => loadSchema v source
  | .error .notYaml => .error .notYaml
  | .error f => .error (.fault f)

end Outline

import Outline.Heading.Spec
import Outline.Schema.Amount
import Outline.Violation

/-!
# Schemas

A schema describes documents: the headings that a document has to have, in order and nested, with
requirements on the sections behind them, and requirements on the document as a whole.

* `Element`: one expected heading, with the expected headings below it;
* `Element.least`, `Element.isRequired`, `Element.isRepeatable`, `Element.most`: how often it may
  occur;
* `SectionRules`: the requirements on a section;
* `LinkRules`, `HeadingRules`, `FrontMatterRules`: the requirements on a document;
* `Schema`: all of it.
-/

namespace Outline

/-! ## Requirements on sections -/

/-- A text that a section contains: itself, or a match of a pattern. -/
inductive TextPattern where
  | literal (text : String)
  | pattern (text : String)
deriving DecidableEq

/-- A text pattern as messages show it. -/
def TextPattern.display : TextPattern → String
  | .literal text => text
  | .pattern text => text

/-- Bounds of a count; an upper bound of 0 is none. -/
structure Bounds where
  min : Amount := 0
  max : Amount := 0

/-- How many blocks of code there are, of one language or of all. -/
structure CodeBlockRule where
  bounds : Bounds := {}
  lang : String := ""

/-- How many images there are, of some formats or of all, and whether each needs a text. -/
structure ImageRule where
  bounds : Bounds := {}
  requireAlt : Bool := false
  formats : List String := []

/-- How many tables there are, and what each needs. -/
structure TableRule where
  bounds : Bounds := {}
  minColumns : Amount := 0
  requiredHeaders : List String := []

/-- The kind of a list. -/
inductive ListKind where
  | ordered
  | unordered
deriving DecidableEq

/-- The word for a kind of list. -/
def ListKind.text : ListKind → String
  | .ordered => "ordered"
  | .unordered => "unordered"

/-- How many lists there are, of one kind or of both, and how many items each needs. -/
structure ListRule where
  bounds : Bounds := {}
  kind : Option ListKind := none
  minItems : Amount := 0

/-- The requirements on a section. -/
structure SectionRules where
  requiredText : List TextPattern := []
  forbiddenText : List TextPattern := []
  codeBlocks : List CodeBlockRule := []
  images : List ImageRule := []
  tables : List TableRule := []
  lists : List ListRule := []
  wordCount : Option Bounds := none

/-! ## Expected headings -/

/-- An expected heading. A count takes precedence over being optional. -/
structure Element where
  heading : HeadingSpec
  optional : Bool := false
  count : Option Bounds := none
  severity : Severity := .error
  allowAdditional : Bool := false
  rules : SectionRules := {}
  description : String := ""
  children : List Element := []

namespace Element

instance : Inhabited Element := ⟨{ heading := .literal "" }⟩

/-- How often the heading has to occur. -/
def least (e : Element) : Amount :=
  match e.count with
  | some bounds => bounds.min
  | none => if e.optional then 0 else 1

/-- Whether the heading has to occur. -/
def isRequired (e : Element) : Bool := 0 < e.least.value

/-- Whether the heading may occur more than once. -/
def isRepeatable (e : Element) : Bool :=
  match e.count with
  | some bounds => bounds.max.value != 1
  | none => false

/-- How many sections the element takes, if that is limited. -/
def most (e : Element) : Option Nat :=
  match e.count with
  | some bounds => if bounds.max.value = 0 then none else some bounds.max.value
  | none => some 1

end Element

/-! ## Requirements on documents -/

/-- What is checked about links. -/
structure LinkRules where
  validateInternal : Bool := false
  validateFiles : Bool := false
  validateExternal : Bool := false
  externalTimeout : Amount := 10
  allowedDomains : List String := []
  blockedDomains : List String := []

/-- What is checked about headings; a depth of 0 is no limit. -/
structure HeadingRules where
  noSkipLevels : Bool := false
  unique : Bool := false
  uniquePerLevel : Bool := false
  maxDepth : Amount := 0

/-- The type of a field of front matter. -/
inductive FieldType where
  | string
  | number
  | boolean
  | array
  | date
deriving DecidableEq

namespace FieldType

/-- All types of fields. -/
def all : List FieldType := [.string, .number, .boolean, .array, .date]

/-- The word for a type. -/
def text : FieldType → String
  | .string => "string"
  | .number => "number"
  | .boolean => "boolean"
  | .array => "array"
  | .date => "date"

/-- The type that a word names. -/
def ofText? (s : String) : Option FieldType := all.find? (·.text == s)

end FieldType

/-- The format of a field of front matter. -/
inductive FieldFormat where
  | date
  | email
  | url
deriving DecidableEq

namespace FieldFormat

/-- All formats of fields. -/
def all : List FieldFormat := [.date, .email, .url]

/-- The word for a format. -/
def text : FieldFormat → String
  | .date => "date"
  | .email => "email"
  | .url => "url"

/-- The format that a word names. -/
def ofText? (s : String) : Option FieldFormat := all.find? (·.text == s)

end FieldFormat

/-- A field of front matter. -/
structure FieldRule where
  name : String
  optional : Bool := false
  type : Option FieldType := none
  format : Option FieldFormat := none
  choices : List Value := []
  pattern : String := ""

/-- What front matter has to hold. -/
structure FrontMatterRules where
  optional : Bool := false
  fields : List FieldRule := []

/-- A schema and the name of its source. -/
structure Schema where
  elements : List Element := []
  links : Option LinkRules := none
  headings : Option HeadingRules := none
  frontMatter : Option FrontMatterRules := none
  source : String := ""

end Outline

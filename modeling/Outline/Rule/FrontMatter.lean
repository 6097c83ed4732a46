import Outline.Address.Split
import Outline.Rule.Basic

/-!
# Requirements on front matter

* `isValidDate`, `isMailAddress`, `isPageAddress`: the formats of texts;
* `FieldRule.messages`: what is wrong with the value of a field;
* `frontMatterRule`: the rule on front matter; all its violations are at the start of the document.
-/

namespace Outline

/-! ## Formats -/

/-- The numbers of a text of the form `2024-01-15`. -/
def dateNumbers? (cs : List Char) : Option (Nat × Nat × Nat) :=
  match cutOn '-' cs with
  | [y, m, d] =>
    if y.length = 4 && m.length = 2 && d.length = 2 && (y ++ m ++ d).all isAsciiDigit then
      some (natOfDigits y, natOfDigits m, natOfDigits d)
    else none
  | _ => none

/-- Whether a text writes a date. -/
def writesDate (s : String) : Bool :=
  match dateNumbers? s.toList with
  | some (y, m, d) => match Date.make y m d with
    | .ok _ => true
    | .error _ => false
  | none => false

/-- Whether a value is a date or a text that writes one. -/
def isValidDate : Value → Bool
  | .date _ => true
  | .moment _ => true
  | .str s => writesDate s
  | _ => false

/-- A text without one line feed at its end. -/
def withoutLastBreak (cs : List Char) : List Char :=
  if cs.getLast? == some '\n' then cs.dropLast else cs

/-- Whether a text is a mail address: one `@` with something before it, a dot inside what is behind
it, and no blanks; a line feed at the end does not count. -/
def isMailAddress (s : String) : Bool :=
  let cs := withoutLastBreak s.toList
  match cutOn '@' cs with
  | [user, host] => !user.isEmpty && (host.drop 1).dropLast.contains '.' && !cs.any isBlank
  | _ => false

/-- Whether a text is the address of a page: of the scheme `http` or `https`, with an authority. -/
def isPageAddress (s : String) : Except Fault Bool := do
  let parts ← splitAddress s
  return ["http", "https"].contains parts.scheme && !parts.authority.isEmpty

/-! ## Fields -/

/-- Whether a value has a type. -/
def FieldType.holds (t : FieldType) (v : Value) : Bool :=
  match t, v with
  | .string, .str _ => true
  | .number, .int _ => true
  | .number, .float _ => true
  | .boolean, .bool _ => true
  | .array, .list _ => true
  | .date, v => isValidDate v
  | _, _ => false

/-- A type as messages name it. -/
def FieldType.shown : FieldType → String
  | .string => "a string"
  | .number => "a number"
  | .boolean => "a boolean"
  | .array => "an array"
  | .date => "a date (YYYY-MM-DD)"

/-- Which field a message is about. -/
def aboutField (name : String) : String := "Frontmatter field '" ++ name ++ "' "

/-- What is wrong with the type of a value. -/
def typeMessages (name : String) (t : FieldType) (v : Value) : List String :=
  if t.holds v then [] else [aboutField name ++ "should be " ++ t.shown]

/-- What is wrong with the format of a value. -/
def formatMessages (name : String) (f : FieldFormat) (v : Value) : Except Fault (List String) :=
  match f, v with
  | .date, v =>
    .ok (if isValidDate v then [] else [aboutField name ++ "should be in YYYY-MM-DD format"])
  | .email, .str s =>
    .ok (if isMailAddress s then [] else [aboutField name ++ "should be a valid email address"])
  | .url, .str s => do
    return if ← isPageAddress s then [] else [aboutField name ++ "should be a valid URL"]
  | _, _ => .ok [aboutField name ++ "format validation requires a string value"]

/-- What is wrong with a value that should be one of some choices. -/
def choiceMessages (name : String) (choices : List Value) (v : Value) :
    Except Fault (List String) := do
  if choices.isEmpty || choices.any (·.same v) then return []
  let allowed ← choices.mapM Value.text?
  return [aboutField name ++ "must be one of: " ++ ", ".intercalate allowed ++ " (found '" ++
    (← v.text?) ++ "')"]

/-- What is wrong with a value whose text should contain a match of a pattern. -/
def patternMessages (name pattern : String) (v : Value) : Except Fault (List String) := do
  if pattern.isEmpty then return []
  let text ← v.text?
  match Regex.compile pattern with
  | .ok p =>
    return if p.occursIn text then []
    else [aboutField name ++ "does not match pattern '" ++ pattern ++ "'"]
  | .error e =>
    match e.fault? with
    | some f => throw f
    | none => return ["Invalid regex pattern for frontmatter field '" ++ name ++ "': " ++
        e.message pattern]

/-- What is wrong with the value of a field. -/
def FieldRule.messages (r : FieldRule) (v : Value) : Except Fault (List String) := do
  let type := match r.type with
    | some t => typeMessages r.name t v
    | none => []
  let format ← match r.format with
    | some f => formatMessages r.name f v
    | none => pure []
  let choice ← choiceMessages r.name r.choices v
  let pattern ← patternMessages r.name r.pattern v
  return type ++ format ++ choice ++ pattern

/-! ## Front matter -/

/-- What is wrong with a field of entries. -/
def entryMessages (entries : List (Value × Value)) (r : FieldRule) : Except Fault (List String) :=
  match (Value.map entries).get? r.name with
  | some v => r.messages v
  | none => .ok (if r.optional then [] else
      ["Required frontmatter field '" ++ r.name ++ "' is missing"])

/-- What is wrong with front matter. -/
def frontMatterMessages (r : FrontMatterRules) (frontMatter : Option FrontMatter) :
    Except Fault (List String) :=
  match frontMatter with
  | none => .ok (if r.optional then [] else ["Frontmatter is required but not found"])
  | some f => match f.entries with
    | .ok entries => do return (← r.fields.mapM (entryMessages entries)).flatten
    | .error _ => .ok ["Frontmatter could not be parsed as valid YAML"]

/-- The violations of the requirements on front matter. -/
def frontMatterRule (c : Context) : Run (List Violation) :=
  match c.schema.frontMatter with
  | some r => do
    let messages ← Run.lift (frontMatterMessages r c.document.frontMatter)
    return messages.map fun m => reported "frontmatter" m (1, 1)
  | none => pure []

end Outline

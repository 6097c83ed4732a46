import Outline.Template.Part
import Outline.Text.Blank

/-!
# Templates

The template for a schema: one heading for each expected heading, with comments that say what the
section behind it has to contain, and as many placeholders as it requires at least.

* `FieldRule.placeholder`, `FieldRule.line`: the front matter;
* `HeadingSpec.parts`: the line of a heading;
* `Element.contentParts`: the comments and placeholders of a section;
* `Schema.parts`, `template`: the whole template.

An amount that is written with a point is not a number of repetitions, so it is a fault where it
says how many placeholders there are.
-/

namespace Outline

/-- Pieces of a template, unless a fault stops it. -/
abbrev Parts := Except Fault (List TemplatePart)

/-! ## Front matter -/

/-- The value of a field in the front matter of a template. -/
def FieldRule.placeholder (f : FieldRule) : Except Fault String :=
  match f.choices with
  | choice :: _ => choice.text?
  | [] =>
    if f.format = some .date || f.type = some .date then .ok "2024-01-01"
    else match f.format, f.type with
      | some .email, _ => .ok "user@example.com"
      | some .url, _ => .ok "https://example.com"
      | _, some .number => .ok "0"
      | _, some .boolean => .ok "false"
      | _, some .array => .ok "[\"item1\", \"item2\"]"
      | _, _ => .ok "\"TODO\""

/-- The line of a field in the front matter of a template. -/
def FieldRule.line (f : FieldRule) : Except Fault String := do
  return f.name ++ ": " ++ (← f.placeholder) ++ (if f.optional then "" else "  # required")

/-- The front matter of a template; there is none without fields. -/
def frontMatterParts (rules : Option FrontMatterRules) : Parts := do
  match rules.elim [] (·.fields) with
  | [] => return []
  | fields =>
    return .line "---" :: (← fields.mapM FieldRule.line).map .line ++ [.line "---", .gap]

/-! ## Headings -/

/-- A text without the signs for its start and its end around it. -/
def withoutAnchors (pattern : List Char) : List Char :=
  trimRight (· == '$') (trimLeft (· == '^') pattern)

/-- The line of a heading for a pattern: the pattern itself, if it starts with the sign of a level
and blanks, and otherwise the sign for the depth before it. -/
def patternLine (depth : Nat) (pattern : List Char) : String :=
  let hashes := pattern.takeWhile (· == '#')
  let rest := pattern.dropWhile (· == '#')
  let marked := !hashes.isEmpty && hashes.length ≤ 6 && rest.head?.any isBlank
  if marked then writtenHeading hashes.length (String.ofList (rest.dropWhile isBlank))
  else writtenHeading depth (String.ofList pattern)

/-- The line of a heading, with a comment if the heading is not known word for word. -/
def HeadingSpec.parts (depth : Nat) : HeadingSpec → List TemplatePart
  | .literal text => [.line text]
  | .pattern text =>
    [.line (patternLine depth (withoutAnchors text.toList)),
      .comment ("Heading must match: " ++ text)]
  | .expr source _ =>
    [.line (writtenHeading depth "TODO: Add heading"),
      .comment ("Heading must satisfy: " ++ source)]

/-! ## Requirements -/

/-- A comment on an amount, unless it is 0. -/
def amountComment (before : String) (a : Amount) (behind : String) : Parts := do
  if a.value = 0 then return []
  return [.comment (before ++ " " ++ (← a.text) ++ " " ++ behind)]

/-- The comments on the bounds of a count. -/
def Bounds.comments (what : String) (b : Bounds) : Parts := do
  let least ← amountComment "Minimum" b.min (what ++ " required")
  return least ++ (← amountComment "Maximum" b.max (what ++ " allowed"))

/-- A comment with texts in a row, unless there are none. -/
def textsComment (before : String) (texts : List String) : List TemplatePart :=
  if texts.isEmpty then [] else [.comment (before ++ ": " ++ ", ".intercalate texts)]

/-- As many placeholders as the lower bound says. -/
def Bounds.placeholders (b : Bounds) (p : Placeholder) : Parts := do
  return List.replicate (← b.min.turns) (.placeholder p)

/-- A word before the kind of what is counted, unless it is empty. -/
def qualified (word kind : String) : String := if word.isEmpty then kind else word ++ " " ++ kind

/-- The comment on a text that has to occur, or must not. -/
def TextPattern.part : TextPattern → TemplatePart
  | .literal text => .comment ("- " ++ text)
  | .pattern text => .comment ("- " ++ text ++ " (regex)")

namespace CodeBlockRule

def comments (r : CodeBlockRule) : Parts := r.bounds.comments (qualified r.lang "code blocks")

def placeholders (r : CodeBlockRule) : Parts := r.bounds.placeholders (.code r.lang)

end CodeBlockRule

namespace ImageRule

def comments (r : ImageRule) : Parts := do
  return (← r.bounds.comments "images") ++
    (if r.requireAlt then [.comment "All images must have alt text"] else []) ++
    textsComment "Allowed formats" r.formats

def placeholders (r : ImageRule) : Parts :=
  r.bounds.placeholders (.image (r.formats.headD "png"))

end ImageRule

namespace TableRule

def comments (r : TableRule) : Parts := do
  return (← r.bounds.comments "tables") ++
    (← amountComment "Minimum" r.minColumns "columns required") ++
    textsComment "Required headers" r.requiredHeaders

/-- The number of columns of the placeholder: as many as are required, and two if nothing is. -/
def columns (r : TableRule) : Except Fault Nat :=
  let named := if r.requiredHeaders.isEmpty then 2 else r.requiredHeaders.length
  if r.minColumns.value < named then .ok named else r.minColumns.turns

/-- The headers of the placeholder: those that are required, and numbered ones. -/
def headers (r : TableRule) : Except Fault (List String) := do
  let named := r.requiredHeaders.length
  return r.requiredHeaders ++
    (List.range' (named + 1) ((← r.columns) - named)).map fun i => "Column " ++ toString i

def placeholders (r : TableRule) : Parts := do
  r.bounds.placeholders (.table (← r.headers))

end TableRule

namespace ListRule

def comments (r : ListRule) : Parts := do
  return (← r.bounds.comments (qualified ((r.kind.map ListKind.text).getD "") "lists")) ++
    (← amountComment "Minimum" r.minItems "items per list")

/-- The number of items of the placeholder: as many as are required, and three if nothing is. -/
def itemCount (r : ListRule) : Except Fault Nat :=
  if r.minItems.value = 0 then .ok 3 else r.minItems.turns

def placeholders (r : ListRule) : Parts := do
  if (← r.bounds.min.turns) = 0 then return []
  r.bounds.placeholders (.list (r.kind = some .ordered) (← r.itemCount))

end ListRule

/-! ## Sections -/

/-- The requirements of one kind: a title, the comments on each, and the placeholders for each. -/
def requirementParts {α : Type} (title : String) (comments placeholders : α → Parts)
    (rules : List α) : Parts := do
  if rules.isEmpty then return []
  let notes ← rules.mapM comments
  let fillers ← rules.mapM placeholders
  return .comment title :: notes.flatten ++ .gap :: fillers.flatten

/-- The comments on texts that have to occur, or must not. -/
def textParts (title : String) (patterns : List TextPattern) : Parts :=
  requirementParts title (fun p => .ok [p.part]) (fun _ => .ok []) patterns

/-- The comments and placeholders for the requirements on a section. -/
def SectionRules.parts (r : SectionRules) : Parts := do
  let required ← textParts "This section must contain the following text:" r.requiredText
  let forbidden ← textParts "WARNING: This section must NOT contain the following:" r.forbiddenText
  let code ← requirementParts "Code block requirements:" CodeBlockRule.comments
    CodeBlockRule.placeholders r.codeBlocks
  let images ← requirementParts "Image requirements:" ImageRule.comments ImageRule.placeholders
    r.images
  let tables ← requirementParts "Table requirements:" TableRule.comments TableRule.placeholders
    r.tables
  let lists ← requirementParts "List requirements:" ListRule.comments ListRule.placeholders r.lists
  let length ← requirementParts "Word count requirements:" (Bounds.comments "words")
    (fun _ => .ok []) r.wordCount.toList
  return required ++ forbidden ++ code ++ images ++ tables ++ lists ++ length

/-- The comment on an expected heading below a section. -/
def childPart (number : Nat) (child : Element) : TemplatePart :=
  .comment (toString number ++ ". " ++ child.heading.display ++
    (if child.isRequired then " (required)" else " (optional)"))

/-- The comments on the expected headings below a section. -/
def childrenParts (children : List Element) : List TemplatePart :=
  if children.isEmpty then []
  else .comment "This section should contain the following subsections in order:" ::
    (children.zipIdx 1).map (fun c => childPart c.2 c.1) ++ [.gap]

namespace Element

/-- The comment on how often a heading may occur, if its count is given. -/
def countParts (e : Element) : Parts :=
  match e.count with
  | none => .ok []
  | some b => do
    let least ← b.min.text
    let most ← if b.max.value = 0 then .ok "unlimited" else b.max.text
    return [.comment ("Occurrences: " ++ least ++ " to " ++ most)]

/-- The comments on a heading itself. -/
def notes (e : Element) : Parts := do
  let described := if e.description.isEmpty then [] else [.comment e.description]
  let optional := if e.isRequired then [] else [.comment "Optional section"]
  match described ++ optional ++ (← e.countParts) with
  | [] => return []
  | notes => return notes ++ [.gap]

/-- The comments and placeholders of a section; without requirements there is a text. -/
def contentParts (e : Element) : Parts := do
  match childrenParts e.children ++ (← e.rules.parts) with
  | [] => return [.placeholder .text]
  | content => return content

/-- The pieces for an expected heading, without those for the headings below it. -/
def ownParts (depth : Nat) (e : Element) : Parts := do
  let notes ← e.notes
  return e.heading.parts depth ++ .gap :: notes ++ (← e.contentParts)

mutual

/-- The pieces for an expected heading and those below it. -/
def parts (depth : Nat) : Element → Parts
  | ⟨heading, optional, count, severity, allowAdditional, rules, description, children⟩ => do
    let own ← ownParts depth
      ⟨heading, optional, count, severity, allowAdditional, rules, description, children⟩
    return own ++ (← partsOfAll (depth + 1) children)

/-- The pieces for a row of expected headings. -/
def partsOfAll (depth : Nat) : List Element → Parts
  | [] => .ok []
  | e :: es => do
    let first ← parts depth e
    return first ++ (← partsOfAll depth es)

end

end Element

/-! ## The template -/

/-- The pieces of the template for a schema. -/
def Schema.parts (s : Schema) : Parts := do
  let front ← frontMatterParts s.frontMatter
  return front ++ .comment "Generated from schema" :: .gap :: (← Element.partsOfAll 1 s.elements)

/-- The template for a schema. -/
def template (s : Schema) : Except Fault String := do
  return unlines ((← s.parts).flatMap TemplatePart.lines)

end Outline

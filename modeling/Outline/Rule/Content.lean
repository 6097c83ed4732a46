import Outline.Rule.Basic

/-!
# Requirements on sections

The rules that look at the sections that have a node, one requirement of the element after the
other. All violations are as grave as errors.

* `TextPattern.occursIn`: whether a text contains a text pattern;
* `requiredTextRule`, `forbiddenTextRule`: texts in sections;
* `codeBlockRule`, `imageRule`, `tableRule`, `listRule`, `wordCountRule`: counts in sections.
-/

namespace Outline

/-! ## Texts -/

/-- Whether a text contains a text pattern, and whether the pattern is malformed; a malformed one is
looked for as it is written. -/
def TextPattern.occursIn (content : String) : TextPattern → Except Fault (Bool × Bool)
  | .literal text => .ok (Text.contains content.toList text.toList, false)
  | .pattern text => do
    match ← usablePattern text with
    | some p => return (p.occursIn content, false)
    | none => return (Text.contains content.toList text.toList, true)

/-- Whether a text contains a text pattern; a malformed one is noted. -/
def contentContains (content : String) (p : TextPattern) : Run Bool := do
  let (found, malformed) ← Run.lift (p.occursIn content)
  if malformed then
    Run.warn "mdschema.content_rules"
      ("Invalid text regex " ++ shown p.display ++ "; searching for it literally")
  return found

/-- The number of words of a text. -/
def countWords (content : String) : Nat := (words content.toList).length

/-- A text between single quotes, as it is. -/
def inQuotes (s : String) : String := "'" ++ s ++ "'"

/-- The violations of the nodes with a section. -/
def onBoundNodes (c : Context) (check : Placed → Run (List Violation)) : Run (List Violation) := do
  return (← c.binding.boundNodes.mapM check).flatten

/-- Texts that sections have to contain. -/
def requiredTextRule (c : Context) : Run (List Violation) :=
  onBoundNodes c fun p => do
    let missing ← p.node.element.rules.requiredText.filterM fun pattern => do
      return !(← contentContains p.node.content pattern)
    return missing.map fun pattern =>
      reported "required-text" ("Required text " ++ inQuotes pattern.display ++
        " not found in section " ++ inQuotes p.node.headingText) p.location

/-- Texts that sections must not contain. -/
def forbiddenTextRule (c : Context) : Run (List Violation) :=
  onBoundNodes c fun p => do
    let present ← p.node.element.rules.forbiddenText.filterM (contentContains p.node.content)
    return present.map fun pattern =>
      reported "forbidden-text" ("Forbidden text " ++ inQuotes pattern.display ++
        " found in section " ++ inQuotes p.node.headingText) p.location

/-! ## Counts -/

/-- Messages for a count out of its bounds. -/
def countMessages (count : Nat) (bounds : Bounds) (tooFew tooMany : String → String) :
    Except Fault (List String) := do
  let low ← if count < bounds.min.value then do pure [tooFew (← bounds.min.text)] else pure []
  let high ←
    if 0 < bounds.max.value && bounds.max.value < count then do pure [tooMany (← bounds.max.text)]
    else pure []
  return low ++ high

/-- The name of a node at the start of a message. -/
def sectionName (p : Placed) : String := "Section " ++ inQuotes p.node.headingText

/-- Messages for a number of things in a section; the two names of the things are used where there
are too few and too many. -/
def thingMessages (p : Placed) (count : Nat) (bounds : Bounds) (few many : String) :
    Except Fault (List String) :=
  countMessages count bounds
    (fun least => sectionName p ++ " requires at least " ++ least ++ " " ++ few ++ ", found " ++
      toString count)
    (fun most => sectionName p ++ " has too many " ++ many ++ " (max " ++ most ++ ", found " ++
      toString count ++ ")")

/-- Violations at the heading of a node. -/
def atHeading (rule : String) (p : Placed) (messages : List String) : List Violation :=
  messages.map fun m => reported rule m p.location

/-- The violations of all requirements of one kind. -/
def onRequirements {α : Type} (c : Context) (requirements : SectionRules → List α)
    (check : Placed → α → Except Fault (List Violation)) : Run (List Violation) :=
  onBoundNodes c fun p => do
    return (← Run.lift ((requirements p.node.element.rules).mapM (check p))).flatten

/-- The number of blocks of code in a section. -/
def checkCodeBlocks (p : Placed) (r : CodeBlockRule) : Except Fault (List Violation) := do
  let count := p.node.elements.codeBlocks.countP fun b => r.lang.isEmpty || b.lang == r.lang
  let kind := if r.lang.isEmpty then "code blocks" else inQuotes r.lang ++ " code blocks"
  return atHeading "codeblock" p (← thingMessages p count r.bounds kind kind)

/-- The number of blocks of code. -/
def codeBlockRule (c : Context) : Run (List Violation) :=
  onRequirements c SectionRules.codeBlocks checkCodeBlocks

/-- The extension of the file that an address leads to, in small letters. -/
def addressExtension (url : String) : List Char :=
  let path := (url.toList.takeWhile (· != '?')).takeWhile (· != '#')
  lowerChars ((splitExtension path).2.dropWhile (· == '.'))

/-- Whether the file that an address leads to has one of some formats. -/
def hasFormat (url : String) (formats : List String) : Bool :=
  formats.any fun f => lowerChars f.toList == addressExtension url

/-- The number of images in a section, and their texts. -/
def checkImages (p : Placed) (r : ImageRule) : Except Fault (List Violation) := do
  let images := p.node.elements.images
  let count := images.countP fun i => r.formats.isEmpty || hasFormat i.url r.formats
  let few :=
    if r.formats.isEmpty then "images" else "images (" ++ ", ".intercalate r.formats ++ ")"
  let messages ← thingMessages p count r.bounds few "images"
  let silent := images.filter fun i => r.requireAlt && (strip i.alt).isEmpty
  return atHeading "image" p messages ++ silent.map fun i =>
    reported "image" ("Image in section " ++ inQuotes p.node.headingText ++
      " is missing alt text") (i.line, i.column)

/-- The number of images, and their texts. -/
def imageRule (c : Context) : Run (List Violation) :=
  onRequirements c SectionRules.images checkImages

/-- The form of a header in which headers are compared. -/
def headerKey (header : String) : String := lower (strip header)

/-- The columns and the headers of a table. -/
def checkTable (p : Placed) (r : TableRule) (t : Table) : Except Fault (List Violation) := do
  let name := "Table in section " ++ inQuotes p.node.headingText
  let columns := t.headers.length
  let narrow ←
    if columns < r.minColumns.value then do
      pure [name ++ " has too few columns (minimum " ++ (← r.minColumns.text) ++ ", found " ++
        toString columns ++ ")"]
    else pure []
  let present := t.headers.map headerKey
  let missing := r.requiredHeaders.filter fun h => !present.contains (headerKey h)
  return (narrow ++ missing.map fun h => name ++ " is missing required header " ++ inQuotes h).map
    fun m => reported "table" m (t.line, t.column)

/-- The number of tables in a section, and each of them. -/
def checkTables (p : Placed) (r : TableRule) : Except Fault (List Violation) := do
  let tables := p.node.elements.tables
  let messages ← thingMessages p tables.length r.bounds "tables" "tables"
  return atHeading "table" p messages ++ (← tables.mapM (checkTable p r)).flatten

/-- The number of tables, and each of them. -/
def tableRule (c : Context) : Run (List Violation) :=
  onRequirements c SectionRules.tables checkTables

/-- Whether a list is of a kind. -/
def ItemList.isOf (l : ItemList) : Option ListKind → Bool
  | some .ordered => l.ordered
  | some .unordered => !l.ordered
  | none => true

/-- The items of a list. -/
def checkItems (p : Placed) (r : ListRule) (l : ItemList) : Except Fault (List Violation) := do
  if l.itemCount < r.minItems.value then
    return [reported "list" ("List in section " ++ inQuotes p.node.headingText ++
      " has too few items (minimum " ++ (← r.minItems.text) ++ ", found " ++
      toString l.itemCount ++ ")") (l.line, l.column)]
  else return []

/-- The number of lists in a section, and each of them. -/
def checkLists (p : Placed) (r : ListRule) : Except Fault (List Violation) := do
  let lists := p.node.elements.lists.filter (·.isOf r.kind)
  let kind := match r.kind with
    | some k => k.text ++ " lists"
    | none => "lists"
  let messages ← thingMessages p lists.length r.bounds kind kind
  return atHeading "list" p messages ++ (← lists.mapM (checkItems p r)).flatten

/-- The number of lists, and each of them. -/
def listRule (c : Context) : Run (List Violation) :=
  onRequirements c SectionRules.lists checkLists

/-- The number of words in a section. -/
def checkWordCount (p : Placed) (bounds : Bounds) : Except Fault (List Violation) := do
  let count := countWords p.node.content
  let messages ← countMessages count bounds
    (fun least => sectionName p ++ " has too few words (minimum " ++ least ++ ", found " ++
      toString count ++ ")")
    (fun most => sectionName p ++ " has too many words (maximum " ++ most ++ ", found " ++
      toString count ++ ")")
  return atHeading "word-count" p messages

/-- The number of words. -/
def wordCountRule (c : Context) : Run (List Violation) :=
  onRequirements c (fun r => r.wordCount.toList) checkWordCount

end Outline

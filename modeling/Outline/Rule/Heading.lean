import Outline.Rule.Basic
import Outline.Text.Letter

/-!
# Requirements on headings

* `skips`: headings that lie more than one level below the one before;
* `repeats`: headings that agree with an earlier one, with the first such one;
* `headingRule`: the rule on headings.
-/

namespace Outline

/-- The name of the rule. -/
def headingRuleName : String := "heading"

/-- A violation at a heading. -/
def atHeadingLine (h : Heading) (message : String) : Violation :=
  reported headingRuleName message (h.line, h.column)

/-- The name of a level. -/
def levelName (level : Nat) : String := "h" ++ toString level

/-- Each two neighbours of a list. -/
def neighbours {α : Type} (l : List α) : List (α × α) := l.zip (l.drop 1)

/-- Headings that lie more than one level below the one before, with that one. -/
def skips (headings : List Heading) : List (Heading × Heading) :=
  (neighbours headings).filter fun (before, h) => before.level + 1 < h.level

/-- Headings that agree with an earlier one in the key, with the first such one. The headings before
the list are those in `seen`. -/
def repeatsAfter {κ : Type} [BEq κ] (key : Heading → κ) :
    (seen : List Heading) → List Heading → List (Heading × Heading)
  | _, [] => []
  | seen, h :: hs =>
    match seen.find? fun g => key g == key h with
    | some first => (first, h) :: repeatsAfter key seen hs
    | none => repeatsAfter key (seen ++ [h]) hs

/-- Headings that agree with an earlier one in the key, with the first such one. -/
def repeats {κ : Type} [BEq κ] (key : Heading → κ) (headings : List Heading) :
    List (Heading × Heading) :=
  repeatsAfter key [] headings

/-- The text of a heading as texts of headings are compared. -/
def headingKey (h : Heading) : String := lower (strip h.text)

/-- Violations of headings that skip levels. -/
def checkSkips (headings : List Heading) : List Violation :=
  (skips headings).map fun (before, h) =>
    atHeadingLine h ("Heading level skipped: '" ++ h.text ++ "' (" ++ levelName h.level ++
      ") after " ++ levelName before.level)

/-- Where a text occurred first. -/
def firstLine (first : Heading) : String :=
  " (first occurrence at line " ++ toString first.line ++ ")"

/-- Violations of headings with a text that occurred before. -/
def checkUnique (headings : List Heading) : List Violation :=
  (repeats headingKey headings).map fun (first, h) =>
    atHeadingLine h ("Duplicate heading '" ++ h.text ++ "'" ++ firstLine first)

/-- Violations of headings with a text that occurred before on the same level. -/
def checkUniquePerLevel (headings : List Heading) : List Violation :=
  (repeats (fun h => (h.level, headingKey h)) headings).map fun (first, h) =>
    atHeadingLine h ("Duplicate " ++ levelName h.level ++ " heading '" ++ h.text ++ "'" ++
      firstLine first)

/-- Violations of headings that lie too deep. -/
def checkDepth (headings : List Heading) (most : Amount) : Except Fault (List Violation) :=
  (headings.filter fun h => 0 < most.value && most.value < h.level).mapM fun h => do
    return atHeadingLine h ("Heading '" ++ h.text ++ "' (" ++ levelName h.level ++
      ") exceeds maximum depth of " ++ (← most.text))

/-- The violations of requirements on headings. -/
def checkHeadings (headings : List Heading) (r : HeadingRules) : Except Fault (List Violation) := do
  return (if r.noSkipLevels then checkSkips headings else []) ++
    (if r.unique then checkUnique headings else []) ++
    (if r.uniquePerLevel then checkUniquePerLevel headings else []) ++
    (← checkDepth headings r.maxDepth)

/-- The violations of the requirements on headings. -/
def headingRule (c : Context) : Run (List Violation) :=
  match c.schema.headings with
  | some r => Run.lift (checkHeadings c.document.headings r)
  | none => pure []

end Outline

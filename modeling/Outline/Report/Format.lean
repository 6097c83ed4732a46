import Outline.Text.Blank
import Outline.Text.Letter
import Outline.Text.Quoted
import Outline.Violation

/-!
# Reports

Violations as they are printed, with a summary.

* `Json`, `Json.pretty`: what is written as JSON, and its text, each member on a line of its own;
* `reportText`: a report as text for a console;
* `reportJson`: a report as JSON.
-/

namespace Outline

/-! ## JSON texts -/

/-- What is written as JSON. -/
inductive Json where
  | truth (b : Bool)
  | number (n : Int)
  | text (s : String)
  | list (items : List Json)
  | object (members : List (String × Json))

namespace Json

/-- A list of texts. -/
def texts (ss : List String) : Json := .list (ss.map .text)

/-- The line break before a member that is nested so deep. -/
def newline (depth : Nat) : String := "\n" ++ String.ofList (List.replicate (2 * depth) ' ')

/-- The members between brackets, each on a line of its own; empty brackets without members. -/
def bracketed (left right : String) (depth : Nat) (members : List String) : String :=
  if members.isEmpty then left ++ right
  else left ++ newline (depth + 1) ++ ("," ++ newline (depth + 1)).intercalate members ++
    newline depth ++ right

mutual

/-- The text of a value that is nested so deep. -/
def pretty (depth : Nat) : Json → String
  | .truth b => if b then "true" else "false"
  | .number n => toString n
  | .text s => jsonQuoted s
  | .list items => bracketed "[" "]" depth (prettyItems (depth + 1) items)
  | .object members => bracketed "\x7b" "\x7d" depth (prettyMembers (depth + 1) members)

/-- The texts of the items of a list. -/
def prettyItems (depth : Nat) : List Json → List String
  | [] => []
  | j :: js => pretty depth j :: prettyItems depth js

/-- The texts of the members of an object. -/
def prettyMembers (depth : Nat) : List (String × Json) → List String
  | [] => []
  | (name, j) :: ms => (jsonQuoted name ++ ": " ++ pretty depth j) :: prettyMembers depth ms

end

end Json

/-! ## Reports -/

/-- A violation as it is printed on a console, in two lines. -/
def Violation.console (v : Violation) : String :=
  "[" ++ upper v.severity ++ "] " ++ (if v.path.isEmpty then v.place else v.position) ++ ": " ++
    v.rule ++ "\n  " ++ v.message

/-- The number of different texts in a list. -/
def countDistinct : List String → Nat
  | [] => 0
  | s :: ss => (if ss.contains s then 0 else 1) + countDistinct ss

/-- Violations found in so many documents as text, with a summary at the end. -/
def reportText (violations : List Violation) (documents : Nat) : String :=
  unlines (violations.map Violation.console ++
    if violations.isEmpty then ["Validation passed: " ++ toString documents ++ " document(s)"]
    else ["", "Found " ++ toString violations.length ++ " violation(s) in " ++
      toString (countDistinct (violations.map (·.path))) ++ " file(s) (" ++ toString documents ++
      " checked)"])

/-- A violation as JSON. -/
def Violation.json (v : Violation) : Json :=
  .object
    [("rule", .text v.rule),
      ("message", .text v.message),
      ("line", .number v.line),
      ("column", .number v.column),
      ("severity", .text v.severity),
      ("path", .text v.path)]

/-- Violations found in so many documents as JSON. -/
def reportJson (violations : List Violation) (documents : Nat) : String :=
  Json.pretty 0 (.object
    [("files_checked", .number documents),
      ("violation_count", .number violations.length),
      ("violations", .list (violations.map Violation.json))])

end Outline

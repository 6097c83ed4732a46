/-!
# Violations

What a rule found wrong, where, and how grave it is.

* `Severity`: the three grades;
* `Severity.ofText`: the grade of a word; a word that names none counts as an error;
* `Violation`: a violation;
* `Violation.position`, `Violation.text`: the place, and all of it, in one line;
* `Violation.le`: the order in which violations are reported.
-/

namespace Outline

/-- How grave a violation is. -/
inductive Severity where
  | error
  | warning
  | info
deriving DecidableEq, Inhabited

namespace Severity

/-- All grades. -/
def all : List Severity := [.error, .warning, .info]

/-- The word for a grade. -/
def text : Severity → String
  | .error => "error"
  | .warning => "warning"
  | .info => "info"

/-- The grade that a word names, if it names one. -/
def ofText? (s : String) : Option Severity := all.find? (·.text == s)

/-- The grade that a word names, or an error. -/
def ofText (s : String) : Severity := (ofText? s).getD .error

end Severity

/-- A violation: the rule, the words, the place, the word for its severity, and the path of the
document, which is empty until it is known. -/
structure Violation where
  rule : String
  message : String
  line : Int
  column : Int
  severity : String := Severity.error.text
  path : String := ""
deriving DecidableEq, Inhabited

namespace Violation

/-- The violation in the document with the given path. -/
def withPath (v : Violation) (path : String) : Violation := { v with path := path }

/-- The place in a document. -/
def place (v : Violation) : String := toString v.line ++ ":" ++ toString v.column

/-- The place with the path of the document. -/
def position (v : Violation) : String := v.path ++ ":" ++ v.place

/-- The violation in one line. -/
def text (v : Violation) : String := v.position ++ ": " ++ v.rule ++ ": " ++ v.message

/-- The order of violations: by path, then by line, then by column. -/
def le (v w : Violation) : Bool :=
  if v.path != w.path then v.path < w.path
  else if v.line != w.line then v.line < w.line
  else v.column ≤ w.column

end Violation

end Outline

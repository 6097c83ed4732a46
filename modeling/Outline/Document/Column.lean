import Outline.Text.Blank
import Outline.Text.Find

/-!
# Columns

The source of a document is searched for the columns at which its parts are reported.

* `headingColumn`: where the text of a heading begins;
* `blockColumn`: where the text of a line begins;
* `locate`: where a link or an image begins, as far as it can be found.
-/

namespace Outline

/-- The column behind the blanks at the front of a line. -/
def blockColumn (line : List Char) : Nat := (line.takeWhile isBlank).length + 1

/-- The column where the text of a heading begins: behind its number signs, if it has some. -/
def headingColumn (line : List Char) : Nat :=
  let indent := (line.takeWhile (· == ' ')).length
  let rest := line.drop indent
  let signs := (rest.takeWhile (· == '#')).length
  if signs = 0 then indent + 1
  else indent + signs + blockColumn (rest.drop signs)

/-- The line with a number counted from 1; empty if there is none. -/
def lineAt (lines : List (List Char)) (number : Nat) : List Char :=
  if number = 0 then [] else (lines[number - 1]?).getD []

/-- The first line in which `needle` occurs, counted from `number`, and the column of the last
`marker` that does not begin behind the start of the first occurrence. -/
def locateFrom (needle marker : List Char) : (number : Nat) → List (List Char) → Option (Nat × Nat)
  | _, [] => none
  | number, line :: rest =>
    match if needle.isEmpty then none else Text.find? needle line with
    | some i =>
      let column := (Text.findLast? marker (line.take (i + 1))).getD i
      some (number, column + 1)
    | none => locateFrom needle marker (number + 1) rest

/-- The line and the column of a part of the block with the lines from `first` up to `stop`, both
counted from 0: where `needle` is found, or else where the block begins. -/
def locate (lines : List (List Char)) (needle marker : List Char) (first stop : Nat) : Nat × Nat :=
  match locateFrom needle marker (first + 1) ((lines.take stop).drop first) with
  | some place => place
  | none => (first + 1, if first < lines.length then blockColumn (lineAt lines (first + 1)) else 1)

end Outline

import Outline.Text.Blank

/-!
# Lines of a document

Blocks are read line by line. Inside a quote or a list item, a line begins at the left edge of that
container. Columns are counted with tab stops every four columns.

* `Line`: a line as it is seen inside a container;
* `Line.body`: the line without its indentation;
* `Line.inside`: the line without as many columns as a container is indented;
* `Line.quoted?`: the line as it is seen inside a quote;
* `documentLines`: the lines of a document.
-/

namespace Outline.Markdown

/-- A line inside a container. -/
structure Line where
  /-- The number of the line in the document, from 0. -/
  number : Nat
  /-- The characters from the left edge of the container on. -/
  chars : List Char
  /-- The number of characters before the body. -/
  shift : Nat
  /-- The column of the body. It is negative for a line that goes on with a paragraph of a quote
  without the sign of the quote. -/
  indent : Int
  /-- The column of the left edge. -/
  base : Int

/-- A space or a tab. -/
def isIndent (c : Char) : Bool := c == ' ' || c == '\t'

/-- The number of columns to the next tab stop. -/
def tabWidth (column : Int) : Nat := (4 - column % 4).toNat

/-- The width of spaces and tabs that begin at a column. -/
def indentWidth (column : Int) : List Char → Nat
  | [] => 0
  | c :: cs =>
    let w := if c == '\t' then tabWidth column else 1
    w + indentWidth (column + w) cs

namespace Line

/-- The line without its indentation. -/
def body (l : Line) : List Char := l.chars.drop l.shift

/-- A line with nothing but indentation. -/
def isBlank (l : Line) : Bool := l.body.isEmpty

/-- A line indented as a block of code is, in a container indented by `indent`. -/
def isCode (l : Line) (indent : Nat) : Bool := decide (4 ≤ l.indent - indent)

/-- Cuts `columns` columns off the front of characters, of which the first `free` may be other than
blank. A tab that is cut leaves its rest as spaces. -/
def cutColumns (base : Int) (columns : Nat) : (free done : Nat) → List Char → List Char
  | _, done, [] => List.replicate (done - columns) ' '
  | free, done, c :: cs =>
    if columns ≤ done then List.replicate (done - columns) ' ' ++ c :: cs
    else if c == '\t' then cutColumns base columns (free - 1) (done + tabWidth (done + base)) cs
    else if c == ' ' || 0 < free then cutColumns base columns (free - 1) (done + 1) cs
    else c :: cs

/-- The line without the first `columns` columns, as far as they are indentation. -/
def inside (l : Line) (columns : Nat) : List Char := cutColumns l.base columns l.shift 0 l.chars

/-- The line inside a quote whose sign it begins with. -/
def quoted? (l : Line) : Option Line :=
  match l.body with
  | '>' :: rest =>
    let column := l.indent + 1
    let (skipped, spaced, late) : Nat × Bool × Bool :=
      match rest with
      | ' ' :: _ => (1, true, false)
      | '\t' :: _ => if (l.base + column) % 4 == 3 then (1, true, false) else (0, true, true)
      | _ => (0, false, false)
    let chars := rest.drop skipped
    let blanks := chars.takeWhile isIndent
    let start := l.base + column + skipped + (if late then 1 else 0)
    some
      { number := l.number
        chars := chars
        shift := blanks.length
        indent := indentWidth start blanks
        base := l.indent + 1 + (if spaced then 1 else 0) }
  | _ => none

end Line

/-- A line of a document. -/
def lineOf (number : Nat) (chars : List Char) : Line :=
  let blanks := chars.takeWhile isIndent
  ⟨number, chars, blanks.length, indentWidth 0 blanks, 0⟩

/-- Every line end as a line feed, and no characters with code 0. -/
def normalized : List Char → List Char
  | [] => []
  | '\r' :: '\n' :: cs => '\n' :: normalized cs
  | c :: cs => (if c == '\r' then '\n' else if c == '\x00' then '\uFFFD' else c) :: normalized cs

/-- Numbers the lines of a document. -/
def numbered : (number : Nat) → List (List Char) → List Line
  | _, [] => []
  | n, cs :: rest => lineOf n cs :: numbered (n + 1) rest

/-- The lines of a document. What stands behind the last line end is a line only if it holds more
than blanks. -/
def documentLines (text : List Char) : List Line :=
  let pieces := cutOn '\n' (normalized text)
  let kept :=
    if (pieces.getLast?.map fun cs => cs.all isIndent).getD true then pieces.dropLast else pieces
  numbered 0 kept

end Outline.Markdown

import Outline.Markdown.Block

/-!
# Tables

A table is a row of cells, a row of hyphens for as many columns, and more rows.

* `cells`: the cells of a row;
* `columnCount?`: the number of columns that a row of hyphens sets;
* `tableAt?`: the table at the front of lines.
-/

namespace Outline.Markdown

/-- The cells of a row. A bar behind a backslash belongs to its cell. -/
def rawCells : (escaped : Bool) → List Char → List (List Char)
  | _, [] => [[]]
  | escaped, c :: cs =>
    if c == '|' && !escaped then [] :: rawCells false cs
    else if c == '\\' && cs.head? == some '|' then rawCells true cs
    else match rawCells (c == '\\') cs with
      | [] => [[c]]
      | cell :: rest => (c :: cell) :: rest

/-- The cells of a row without the empty ones at its ends, each without the blanks around it. -/
def cells (row : List Char) : List (List Char) :=
  let all := rawCells false (trim isBlank row)
  let all := if all.head? == some [] then all.drop 1 else all
  let all := if all.getLast? == some [] then all.dropLast else all
  all.map (trim isBlank)

/-- A cell of the row of hyphens: hyphens, perhaps with a colon at either end. -/
def isColumn (cell : List Char) : Bool :=
  let inner := if cell.head? == some ':' then cell.drop 1 else cell
  let inner := if inner.getLast? == some ':' then inner.dropLast else inner
  !inner.isEmpty && inner.all (· == '-')

/-- The characters that the row of hyphens may have. -/
def isColumnsChar (c : Char) : Bool := c == '|' || c == '-' || c == ':'

/-- The number of columns that a row of hyphens sets. Only the first and the last cell may be
empty. -/
def columnCount? (row : List Char) : Option Nat :=
  match row with
  | first :: second :: _ =>
    if isColumnsChar first && row.all (fun c => isColumnsChar c || isIndent c) &&
        !(first == '-' && isIndent second) then
      let parts := (cutOn '|' row).map (trim isBlank)
      let inner := parts.drop (if parts.head? == some [] then 1 else 0)
      let inner := if inner.getLast? == some [] then inner.dropLast else inner
      if inner.all isColumn then some inner.length else none
    else none
  | _ => none

/-- The cells of the head of a table, if the second line sets as many columns. -/
def tableHead? (k : Inside) : List Line → Option (List (List Char))
  | l :: next :: _ =>
    if next.indent < k.indent || next.isCode k.indent || l.isCode k.indent then none
    else
      let row := trim isBlank l.body
      if !row.contains '|' then none
      else
        let header := cells row
        match columnCount? next.body with
        | some n => if header.length == n && 0 < n then some header else none
        | none => none
  | _ => none

/-- Rows that are filled up with this many cells in all end a table. -/
def maxFilledCells : Int := 65536

/-- Exactly `n` cells: others are cut off, missing ones are empty. -/
def fillCells (n : Nat) (row : List (List Char)) : List (List Char) :=
  row.take n ++ List.replicate (n - row.length) []

/-- The rows behind the head of a table of `n` columns. -/
def tableRowsFrom (k : Inside) (n : Nat) :
    (filled : Int) → List Line → List (Nat × List (List Char))
  | _, [] => []
  | filled, l :: ls =>
    if l.indent < k.indent || interruptsQuote k l || l.body.all isBlank || l.isCode k.indent then []
    else
      let row := cells l.body
      let filled := filled + (n - row.length)
      if maxFilledCells < filled then []
      else (l.number, fillCells n row) :: tableRowsFrom k n filled ls

/-- The table at the front of lines: the cells of its head, and its rows. -/
def tableAt? (k : Inside) (ls : List Line) :
    Option (List (List Char) × List (Nat × List (List Char))) :=
  (tableHead? k ls).map fun header =>
    (header, tableRowsFrom k header.length 0 (ls.drop 2))

/-- Whether a block begins that ends a paragraph, or, if `paragraph` is false, a definition. -/
def interrupts (k : Inside) (paragraph : Bool) (l : Line) (rest : List Line) : Bool :=
  (tableHead? k (l :: rest)).isSome || interruptsList k l || (itemAt? k paragraph l).isSome ||
    (!l.isCode k.indent && (interruptingHtml l.body || (atx? l.body).isSome))

/-- The lines behind the first one of a paragraph or of a definition that belong to it. -/
def continuation (k : Inside) (paragraph : Bool) : List Line → List Line
  | [] => []
  | l :: ls =>
    if l.isBlank then []
    else if l.isCode k.indent || l.indent < 0 then l :: continuation k paragraph ls
    else if interrupts k paragraph l ls then []
    else l :: continuation k paragraph ls

end Outline.Markdown

import Outline.Markdown.Html
import Outline.Markdown.Line
import Outline.Text.Digit

/-!
# Blocks of a document

* `Block`: the tree of blocks;
* `Inside`: the container that a line is seen in;
* `fence?`, `marker?`, `rule?`, `atx?`, `underline?`: the blocks that one line begins;
* `interruptsList`, `interruptsQuote`: the blocks that end a list or a quote.
-/

namespace Outline.Markdown

/-- A block. Lines are counted from 0; a block ends before the line `stop`. Blocks of code without a
fence, blocks of HTML and rules are left out. -/
inductive Block where
  /-- The text of a heading ends before the line `textStop`. -/
  | heading (level first textStop stop : Nat) (text : List Char)
  | paragraph (first stop : Nat) (text : List Char)
  | fence (first : Nat) (info : List Char)
  | quote (blocks : List Block)
  | list (ordered : Bool) (first : Nat) (items : List (List Block))
  | table (first : Nat) (header : List (List Char)) (rows : List (Nat × List (List Char)))
  /-- A label and the address that it stands for. -/
  | definition (label address : List Char)

/-- A container: its indentation, that of the list around it, and the number of containers. -/
structure Inside where
  indent : Nat
  outer : Option Nat
  level : Nat

/-- Containers deeper than this are not read. -/
def maxLevel : Nat := 20

/-! ## Blocks by their first line -/

/-- The start of a fenced block. -/
structure Fence where
  sign : Char
  length : Nat
  info : List Char

/-- The start of a fenced block. -/
def fence? (body : List Char) : Option Fence :=
  match body with
  | c :: _ =>
    if c == '~' || c == '\x60' then
      let run := body.takeWhile (· == c)
      let info := body.drop run.length
      if run.length < 3 || (c == '\x60' && info.contains c) then none else some ⟨c, run.length, info⟩
    else none
  | [] => none

/-- Whether a line closes a fenced block. -/
def Fence.closedBy (f : Fence) (body : List Char) : Bool :=
  let run := body.takeWhile (· == f.sign)
  f.length ≤ run.length && (body.drop run.length).all isIndent

/-- A rule: three or more equal signs with blanks between them. -/
def isRule (body : List Char) : Bool :=
  match body with
  | c :: _ =>
    (c == '*' || c == '-' || c == '_') && body.all (fun d => d == c || isIndent d) &&
      3 ≤ body.count c
  | [] => false

/-- The sign before an item of a list: a bullet, or a number and a sign behind it. -/
structure Marker where
  number : Option Nat
  sign : Char
  width : Nat

/-- Nothing, or a blank. -/
def endsMarker (rest : List Char) : Bool := (rest.head?.map isIndent).getD true

/-- The sign before an item of a list. -/
def marker? (body : List Char) : Option Marker :=
  let ds := body.takeWhile isAsciiDigit
  match body.drop ds.length with
  | c :: rest =>
    if !endsMarker rest then none
    else if ds.isEmpty then
      if c == '*' || c == '-' || c == '+' then some ⟨none, c, 1⟩ else none
    else if ds.length ≤ 9 && (c == '.' || c == ')') then
      some ⟨some (natOfDigits ds), c, ds.length + 1⟩
    else none
  | [] => none

/-- Whether two items belong to one list. -/
def Marker.continues (m m' : Marker) : Bool :=
  m.number.isSome == m'.number.isSome && m.sign == m'.sign

/-- The text of a heading without the number signs behind it. -/
def withoutClosing (rest : List Char) : List Char :=
  let text := trimRight isIndent rest
  let shorter := trimRight (· == '#') text
  if (shorter.getLast?.map isIndent).getD false then shorter else text

/-- The level and the text of a heading with number signs. -/
def atx? (body : List Char) : Option (Nat × List Char) :=
  let signs := body.takeWhile (· == '#')
  let rest := body.drop signs.length
  if 1 ≤ signs.length && signs.length ≤ 6 && endsMarker rest then
    some (signs.length, trim isBlank (withoutClosing rest))
  else none

/-- The level of a heading that a line of equals signs or hyphens underlines. -/
def underline? (body : List Char) : Option Nat :=
  match body with
  | c :: _ =>
    if (c == '=' || c == '-') && (body.dropWhile (· == c)).all isIndent then
      some (if c == '=' then 1 else 2)
    else none
  | [] => none

/-! ## Interruptions -/

/-- The sign of an item at a line, unless the line is indented too far to be one. In a paragraph, an
item begins a list only if it has a text, and if its number is 1. -/
def itemAt? (k : Inside) (interrupting : Bool) (l : Line) : Option Marker :=
  let tooDeep := match k.outer with
    | some outer => decide (4 ≤ l.indent - outer) && decide (l.indent < k.indent)
    | none => false
  if l.isCode k.indent || tooDeep then none
  else
    match marker? l.body with
    | none => none
    | some m =>
      let strict := interrupting && decide ((k.indent : Int) ≤ l.indent)
      if strict && ((m.number.map (· != 1)).getD false || (l.body.drop m.width).all isIndent) then
        none
      else some m

/-- Whether a block begins that ends a list. -/
def interruptsList (k : Inside) (l : Line) : Bool :=
  !l.isCode k.indent && ((fence? l.body).isSome || l.body.head? == some '>' || isRule l.body)

/-- Whether a block of HTML begins that ends what is before it. -/
def interruptingHtml (body : List Char) : Bool :=
  match htmlStart? body with
  | some .tag => false
  | some _ => true
  | none => false

/-- Whether a block begins that ends a quote. -/
def interruptsQuote (k : Inside) (l : Line) : Bool :=
  interruptsList k l || (itemAt? k false l).isSome ||
    (!l.isCode k.indent && (interruptingHtml l.body || (atx? l.body).isSome))

end Outline.Markdown

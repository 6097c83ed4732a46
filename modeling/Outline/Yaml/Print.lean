import Outline.Text.Quoted

/-!
# Writing YAML scalars

A text between quotes, broken into lines where it grows too wide. Single quotes are enough for a text
of printable characters whose line breaks have no spaces beside them; double quotes take any text.

* `needsEscapes`: whether a text has to stand in double quotes;
* `singleQuoted`: a text in single quotes, where a quote is doubled and a line may break at a single
  space;
* `doubleQuoted`: a text in double quotes, where a backslash at the end of a line hides the break;
* `scalarText`: a text in the quotes that it needs.
-/

namespace Outline.Yaml

/-- The column behind which lines are broken. -/
def lineWidth : Nat := 80

/-- A line break and the blanks that start the next line. -/
def freshLine (indent : Nat) : List Char := '\n' :: List.replicate indent ' '

/-- A character that breaks a line between single quotes. -/
def breaksLine (c : Char) : Bool := c == '\n' || c == '\x85' || c == '\u2028' || c == '\u2029'

/-- A character that is written as it is. -/
def isPlainChar (c : Char) : Bool :=
  let n := c.toNat
  n == 10 || (0x20 ≤ n && n ≤ 0x7E) || n == 0x85 || (0xA0 ≤ n && n ≤ 0xD7FF) ||
    (0xE000 ≤ n && n ≤ 0xFFFD && n != 0xFEFF) || (0x10000 ≤ n && n < 0x10FFFF)

/-- Whether a space stands beside a line break. -/
def hasSpacedBreak : List Char → Bool
  | a :: b :: cs =>
    (a == ' ' && breaksLine b) || (breaksLine a && b == ' ') || hasSpacedBreak (b :: cs)
  | _ => false

/-- Whether a text has to stand in double quotes. -/
def needsEscapes (cs : List Char) : Bool := !cs.all isPlainChar || hasSpacedBreak cs

/-! ## Single quotes -/

/-- The kinds of characters between single quotes. -/
inductive CharKind where
  | space
  | lineBreak
  | other
deriving DecidableEq

/-- The kind of a character. -/
def CharKind.of (c : Char) : CharKind :=
  if c == ' ' then .space else if breaksLine c then .lineBreak else .other

/-- The longest runs of characters of one kind. -/
def runs (cs : List Char) : List (List Char) :=
  cs.splitBy fun a b => CharKind.of a == CharKind.of b

/-- Characters with each single quote doubled. -/
def doubleQuotes : List Char → List Char
  | [] => []
  | '\'' :: cs => '\'' :: '\'' :: doubleQuotes cs
  | c :: cs => c :: doubleQuotes cs

/-- Runs between single quotes, from a column on. A line feed counts as a space, so that one more of
them stands before those that are meant. -/
def writeRuns (indent : Nat) : (first : Bool) → (column : Nat) → List (List Char) → List Char
  | _, _, [] => []
  | first, column, run :: rest =>
    match run.head?.map CharKind.of with
    | some .space =>
      if run.length = 1 && lineWidth < column && !first && !rest.isEmpty then
        freshLine indent ++ writeRuns indent false indent rest
      else run ++ writeRuns indent false (column + run.length) rest
    | some .lineBreak =>
      (if run.head? == some '\n' then ['\n'] else []) ++ run ++ List.replicate indent ' ' ++
        writeRuns indent false indent rest
    | _ =>
      let written := doubleQuotes run
      written ++ writeRuns indent false (column + written.length) rest

/-- A text in single quotes that start at a column. -/
def singleQuoted (indent column : Nat) (cs : List Char) : List Char :=
  '\'' :: writeRuns indent true (column + 1) (runs cs) ++ ['\'']

/-! ## Double quotes -/

/-- The letters of short escapes. -/
def shortEscapes : List (Char × Char) :=
  [('\x00', '0'), ('\x07', 'a'), ('\x08', 'b'), ('\t', 't'), ('\n', 'n'), ('\x0b', 'v'),
    ('\x0c', 'f'), ('\r', 'r'), ('\x1b', 'e'), ('"', '"'), ('\\', '\\'), ('\x85', 'N'),
    ('\u2028', 'L'), ('\u2029', 'P')]

/-- A character that is escaped between double quotes. -/
def isEscaped (c : Char) : Bool :=
  let n := c.toNat
  c == '"' || c == '\\' || n == 0x2028 || n == 0x2029 || n == 0xFEFF ||
    !((0x20 ≤ n && n ≤ 0x7E) || (0xA0 ≤ n && n ≤ 0xD7FF) || (0xE000 ≤ n && n ≤ 0xFFFD))

/-- The escape of a character: a letter, or its code in capital hexadecimal digits. -/
def escape (c : Char) : List Char :=
  let code (letter : Char) (width : Nat) : List Char :=
    '\\' :: letter :: (hexDigits width c.toNat).map Char.toUpper
  match shortEscapes.lookup c with
  | some letter => ['\\', letter]
  | none =>
    if c.toNat < 0x100 then code 'x' 2 else if c.toNat < 0x10000 then code 'u' 4 else code 'U' 8

/-- A line break between double quotes, and a backslash before a space that follows. -/
def hiddenBreak (indent : Nat) (next : Option Char) : List Char :=
  '\\' :: freshLine indent ++ if next == some ' ' then ['\\'] else []

/-- The column behind a line break between double quotes. -/
def hiddenColumn (indent : Nat) (next : Option Char) : Nat :=
  if next == some ' ' then indent + 1 else indent

/-- Characters between double quotes, from a column on. Behind the column stand `pending` characters,
which are written once the next line break or escape is known. A line is broken before a space or
behind an escape. -/
def writeEscaped (indent : Nat) :
    (first : Bool) → (column : Nat) → (pending : List Char) → List Char → List Char
  | _, _, pending, [] => pending
  | first, column, pending, c :: cs =>
    if isEscaped c then
      let column := column + pending.length + (escape c).length
      let broken := !first && !cs.isEmpty && lineWidth + 1 < column
      pending ++ escape c ++
        if broken then
          hiddenBreak indent cs.head? ++
            writeEscaped indent false (hiddenColumn indent cs.head?) [] cs
        else writeEscaped indent false column [] cs
    else if !first && !cs.isEmpty && (c == ' ' || pending.isEmpty) &&
        lineWidth < column + pending.length then
      pending ++ hiddenBreak indent (some c) ++
        writeEscaped indent false (hiddenColumn indent (some c)) [c] cs
    else writeEscaped indent false column (pending ++ [c]) cs

/-- A text in double quotes that start at a column. -/
def doubleQuoted (indent column : Nat) (cs : List Char) : List Char :=
  '"' :: writeEscaped indent true (column + 1) [] cs ++ ['"']

/-! ## Either -/

/-- A text in the quotes that it needs, which start at a column; later lines have an indent. -/
def scalarText (indent column : Nat) (text : String) : String :=
  let cs := text.toList
  String.ofList (if needsEscapes cs then doubleQuoted indent column cs
    else singleQuoted indent column cs)

end Outline.Yaml

import Outline.Fault

/-!
# Places in a YAML text

* `Cursor`: a place: the text behind it, and its index, line and column, counted from 0;
* `Cursor.step`: the next place;
* `Read`: readings that move a cursor and can fail;
* `isBreak`, `isGap`, `isBlankGap`: what ends a line, a word or a blank-separated word. The end of the
  text ends all of them.
-/

namespace Outline.Yaml

/-- A character that ends a line. -/
def isBreakChar (c : Char) : Bool :=
  c == '\n' || c == '\r' || c == '\x85' || c == '\u2028' || c == '\u2029'

/-- The end of a line or of the text. -/
def isBreak : Option Char → Bool
  | none => true
  | some c => isBreakChar c

/-- The end of a word: a space, or the end of a line. -/
def isGap : Option Char → Bool
  | none => true
  | some c => c == ' ' || isBreakChar c

/-- The end of a word, where tabs count as well. -/
def isBlankGap : Option Char → Bool
  | none => true
  | some c => c == ' ' || c == '\t' || isBreakChar c

/-- A character that may stand in a YAML text. -/
def isYamlChar (c : Char) : Bool :=
  let n := c.toNat
  n == 9 || n == 10 || n == 13 || (0x20 ≤ n && n ≤ 0x7E) || n == 0x85 ||
    (0xA0 ≤ n && n ≤ 0xD7FF) || (0xE000 ≤ n && n ≤ 0xFFFD) || 0x10000 ≤ n

/-- A character of an anchor or of the name of a directive. -/
def isNameChar (c : Char) : Bool := isAsciiAlnum c || c == '-' || c == '_'

/-- A place in a text. -/
structure Cursor where
  rest : List Char
  index : Nat
  line : Nat
  column : Nat

namespace Cursor

/-- The start of a text. -/
def start (cs : List Char) : Cursor := ⟨cs, 0, 0, 0⟩

/-- The place behind the next character. Of a return and a line feed, the line feed ends the line;
a byte order mark has no width. -/
def step (k : Cursor) : Cursor :=
  match k.rest with
  | [] => k
  | c :: cs =>
    if isBreakChar c && !(c == '\r' && cs.head? == some '\n') then
      ⟨cs, k.index + 1, k.line + 1, 0⟩
    else ⟨cs, k.index + 1, k.line, if c == '\uFEFF' then k.column else k.column + 1⟩

/-- The place behind the next `n` characters. -/
def skip (k : Cursor) : Nat → Cursor
  | 0 => k
  | n + 1 => k.step.skip n

/-- The next character. -/
def head? (k : Cursor) : Option Char := k.rest.head?

/-- The character `n` places on. -/
def at? (k : Cursor) (n : Nat) : Option Char := k.rest[n]?

/-- The characters of a text, from its front on, that satisfy a test. -/
def run (p : Char → Bool) (k : Cursor) : List Char := k.rest.takeWhile p

/-- Whether a line that separates documents begins here: three hyphens or three points. -/
def separates (k : Cursor) : Bool :=
  match k.rest with
  | '-' :: '-' :: '-' :: cs => isBlankGap cs.head?
  | '.' :: '.' :: '.' :: cs => isBlankGap cs.head?
  | _ => false

end Cursor

/-! ## Readings -/

/-- A reading: it moves a cursor, and can fail. -/
abbrev Read := StateT Cursor (Except Fault)

namespace Read

/-- The text is no YAML. -/
def fail {α : Type} : Read α := throw .notYaml

/-- The next character. -/
def peek : Read (Option Char) := do return (← get).head?

/-- The character `n` places on. -/
def peekAt (n : Nat) : Read (Option Char) := do return (← get).at? n

/-- Moves on by `n` characters. -/
def move (n : Nat) : Read Unit := modify fun k => k.skip n

/-- Takes characters as long as they satisfy a test. -/
def takeWhile (p : Char → Bool) : Read (List Char) := do
  let cs := (← get).run p
  move cs.length
  return cs

/-- Takes the end of a line, if one stands here: the line feed that it counts as, or the separator
itself. -/
def lineBreak : Read (List Char) := do
  match (← get).rest with
  | '\r' :: '\n' :: _ => move 2; return ['\n']
  | c :: _ =>
    if c == '\n' || c == '\r' || c == '\x85' then
      move 1
      return ['\n']
    else if c == '\u2028' || c == '\u2029' then
      move 1
      return [c]
    else return []
  | [] => return []

/-- Takes spaces. -/
def spaces : Read Unit := do
  let _ ← takeWhile (· == ' ')

/-- Takes a comment, if one stands here. -/
def comment : Read Unit := do
  if (← peek) == some '#' then
    let _ ← takeWhile fun c => !isBreakChar c

/-- Takes what may stand at the end of a line: spaces, a comment and the line's end. -/
def restOfLine : Read Unit := do
  spaces
  comment
  if !isBreak (← peek) then fail
  let _ ← lineBreak

end Read

end Outline.Yaml

import Outline.Yaml.Cursor

/-!
# Scalars of YAML

The texts of scalars, from the place where they begin.

* `quotedScalar`: between single or double quotes. Breaks of lines are folded: one counts as a
  space, more count as one fewer than they are;
* `blockScalar`: the indented lines after `|` or `>`; the latter folds them as well;
* `plainScalar`: without quotes, up to what ends it.
-/

namespace Outline.Yaml

open Read

/-! ## Escapes -/

/-- What a backslash and one more character stand for. -/
def escaped? (c : Char) : Option Char :=
  match c with
  | '0' => some '\x00'
  | 'a' => some '\x07'
  | 'b' => some '\x08'
  | 't' => some '\t'
  | '\t' => some '\t'
  | 'n' => some '\n'
  | 'v' => some '\x0b'
  | 'f' => some '\x0c'
  | 'r' => some '\r'
  | 'e' => some '\x1b'
  | ' ' => some ' '
  | '"' => some '"'
  | '\\' => some '\\'
  | '/' => some '/'
  | 'N' => some '\x85'
  | '_' => some '\xa0'
  | 'L' => some '\u2028'
  | 'P' => some '\u2029'
  | _ => none

/-- The number of hexadecimal digits that an escape is followed by. -/
def escapeWidth? (c : Char) : Option Nat :=
  match c with
  | 'x' => some 2
  | 'u' => some 4
  | 'U' => some 8
  | _ => none

/-- The character with the code that the next `width` hexadecimal digits write. -/
def codeEscape (width : Nat) : Read Char := do
  let ds := (← get).rest.take width
  if ds.length < width || !ds.all isHexDigit then fail
  let n := hexValue ds
  if 0x7FFFFFFF < n then throw .outOfRange
  if 0x10FFFF < n then throw .noCharacter
  move width
  return Char.ofNat n

/-! ## Between quotes -/

/-- Line ends within quotes, without the blanks before and behind them. -/
def quotedBreaks : (fuel : Nat) → Read (List Char)
  | 0 => fail
  | fuel + 1 => do
    if (← get).separates then fail
    let _ ← takeWhile fun c => c == ' ' || c == '\t'
    if isBreak (← peek) && (← peek).isSome then
      let b ← lineBreak
      return b ++ (← quotedBreaks fuel)
    else return []

/-- A character that stands for itself between quotes of either kind. -/
def isSolid (c : Char) : Bool :=
  !(c == '\'' || c == '"' || c == '\\' || c == ' ' || c == '\t' || isBreakChar c)

/-- Characters between quotes up to a blank, the end of a line or the closing quote. -/
def quotedSolid (double : Bool) : (fuel : Nat) → Read (List Char)
  | 0 => fail
  | fuel + 1 => do
    let cs ← takeWhile isSolid
    match (← get).rest with
    | '\'' :: tail =>
      if double then
        move 1
        return cs ++ '\'' :: (← quotedSolid double fuel)
      else if tail.head? == some '\'' then
        move 2
        return cs ++ '\'' :: (← quotedSolid double fuel)
      else return cs
    | '"' :: _ =>
      if double then return cs
      else
        move 1
        return cs ++ '"' :: (← quotedSolid double fuel)
    | '\\' :: tail =>
      move 1
      if !double then return cs ++ '\\' :: (← quotedSolid double fuel)
      match tail with
      | [] => fail
      | c :: _ =>
        match escaped? c with
        | some d =>
          move 1
          return cs ++ d :: (← quotedSolid double fuel)
        | none =>
          match escapeWidth? c with
          | some width =>
            move 1
            let d ← codeEscape width
            return cs ++ d :: (← quotedSolid double fuel)
          | none =>
            if !isBreakChar c then fail
            let _ ← lineBreak
            let breaks ← quotedBreaks (fuel + 1)
            return cs ++ breaks ++ (← quotedSolid double fuel)
    | _ => return cs

/-- What a line end and the line ends right behind it are folded to. -/
def foldedBreaks (first rest : List Char) : List Char :=
  (if first != ['\n'] then first else if rest.isEmpty then [' '] else []) ++ rest

/-- Blanks between quotes: kept within a line, folded around line ends. -/
def quotedBlanks (fuel : Nat) : Read (List Char) := do
  let blanks ← takeWhile fun c => c == ' ' || c == '\t'
  match ← peek with
  | none => fail
  | some c =>
    if isBreakChar c then
      let first ← lineBreak
      let rest ← quotedBreaks fuel
      return foldedBreaks first rest
    else return blanks

/-- The rest of a quoted text, up to its closing quote. -/
def quotedRest (quote : Char) : (fuel : Nat) → Read (List Char)
  | 0 => fail
  | fuel + 1 => do
    if (← peek) == some quote then
      move 1
      return []
    let blanks ← quotedBlanks (fuel + 1)
    let solid ← quotedSolid (quote == '"') (fuel + 1)
    return blanks ++ solid ++ (← quotedRest quote fuel)

/-- A text between quotes. -/
def quotedScalar (quote : Char) : Read String := do
  let fuel := (← get).rest.length + 1
  move 1
  let solid ← quotedSolid (quote == '"') fuel
  return String.ofList (solid ++ (← quotedRest quote fuel))

/-! ## Blocks -/

/-- What becomes of the line ends behind a block: all are taken off, one is kept, all are kept. -/
inductive Chomping where
  | strip
  | clip
  | keep
deriving DecidableEq

/-- A sign for chomping. -/
def chomping? : Option Char → Option Chomping
  | some '+' => some .keep
  | some '-' => some .strip
  | _ => none

/-- A digit for an indentation; 0 is none. -/
def indentation? : Option Char → Option Nat
  | some c => if isAsciiDigit c then some (c.toNat - 48) else none
  | none => none

/-- The signs behind `|` or `>`: chomping and indentation, in either order. -/
def blockHeader : Read (Chomping × Option Nat) := do
  let (chomping, increment) ← match chomping? (← peek) with
    | some chomping => do
      move 1
      let increment := indentation? (← peek)
      if increment.isSome then move 1
      pure (chomping, increment)
    | none => do
      let increment := indentation? (← peek)
      if increment.isSome then
        move 1
        match chomping? (← peek) with
        | some chomping => do
          move 1
          pure (chomping, increment)
        | none => pure (.clip, increment)
      else pure (.clip, none)
  if increment == some 0 then fail
  if !isGap (← peek) then fail
  restOfLine
  return (chomping, increment)

/-- Empty lines before a block whose indentation is to be found: their ends, and the greatest number
of spaces on a line. -/
def leadingLines : (fuel : Nat) → (deepest : Nat) → Read (List Char × Nat)
  | 0, _ => fail
  | fuel + 1, deepest => do
    match ← peek with
    | some ' ' =>
      move 1
      leadingLines fuel (max deepest (← get).column)
    | some c =>
      if isBreakChar c then
        let b ← lineBreak
        let (bs, deepest) ← leadingLines fuel deepest
        return (b ++ bs, deepest)
      else return ([], deepest)
    | none => return ([], deepest)

/-- Takes spaces up to a column. -/
def spacesUpTo (indent : Nat) : Read Unit := do
  let k ← get
  move (min (indent - k.column) (k.run (· == ' ')).length)

/-- Empty lines in a block of known indentation. -/
def emptyLines (indent : Nat) : (fuel : Nat) → Read (List Char)
  | 0 => fail
  | fuel + 1 => do
    spacesUpTo indent
    if isBreak (← peek) && (← peek).isSome then
      let b ← lineBreak
      return b ++ (← emptyLines indent fuel)
    else return []

/-- A line begins with a blank. -/
def beginsBlank (c : Option Char) : Bool := c == some ' ' || c == some '\t'

/-- The lines of a block, given the ends of the empty lines before them: the text, and the line ends
behind it. -/
def blockLines (folded : Bool) (indent : Nat) :
    (fuel : Nat) → (breaks : List Char) → Read (List Char × List Char × List Char)
  | 0, _ => fail
  | fuel + 1, breaks => do
    if (← get).column == indent && (← peek).isSome then
      let solid := !beginsBlank (← peek)
      let text ← takeWhile fun c => !isBreakChar c
      let ending ← lineBreak
      let empties ← emptyLines indent (fuel + 1)
      if (← get).column == indent && (← peek).isSome then
        let joint :=
          if folded && ending == ['\n'] && solid && !beginsBlank (← peek) then
            if empties.isEmpty then [' '] else []
          else ending
        let (more, last, rest) ← blockLines folded indent fuel empties
        return (breaks ++ text ++ joint ++ more, last, rest)
      else return (breaks ++ text, ending, empties)
    else return ([], [], breaks)

/-- An indented text behind `|` or `>`. -/
def blockScalar (outer : Int) (folded : Bool) : Read String := do
  let fuel := (← get).rest.length + 2
  move 1
  let (chomping, increment) ← blockHeader
  let least : Nat := max 1 (outer + 1).toNat
  let (breaks, indent) ← match increment with
    | none => do
      let (breaks, deepest) ← leadingLines fuel 0
      pure (breaks, max least deepest)
    | some n => do
      let indent := least + n - 1
      pure (← emptyLines indent fuel, indent)
  let (text, last, rest) ← blockLines folded indent fuel breaks
  return String.ofList (match chomping with
    | .strip => text
    | .clip => text ++ last
    | .keep => text ++ last ++ rest)

/-! ## Plain texts -/

/-- A character that separates parts of a collection in brackets. -/
def isFlowMark (c : Char) : Bool := c == ',' || c == '[' || c == ']' || c == '{' || c == '}'

/-- Whether a plain text ends before the front of a text. -/
def endsPlain (flow : Bool) : List Char → Bool
  | [] => true
  | c :: cs =>
    c == ' ' || c == '\t' || isBreakChar c ||
      (c == ':' && (isBlankGap cs.head? || (flow && (cs.head?.map isFlowMark).getD false))) ||
      (flow && (c == '?' || isFlowMark c))

/-- The characters of a plain text up to a blank or to its end. -/
def plainRun (flow : Bool) : List Char → List Char
  | [] => []
  | c :: cs => if endsPlain flow (c :: cs) then [] else c :: plainRun flow cs

/-- Line ends and spaces within a plain text; nothing where a separator of documents stands. -/
def plainBreaks : (fuel : Nat) → Read (Option (List Char))
  | 0 => fail
  | fuel + 1 => do
    if (← get).separates then return none
    spaces
    if isBreak (← peek) && (← peek).isSome then
      let b ← lineBreak
      return (← plainBreaks fuel).map (b ++ ·)
    else return some []

/-- Blanks within a plain text, folded around line ends, and whether there was a line end; empty if
the text ends here. -/
def plainBlanks (fuel : Nat) : Read (List Char × Bool) := do
  let blanks ← takeWhile (· == ' ')
  if isBreak (← peek) && (← peek).isSome then
    let first ← lineBreak
    match ← plainBreaks fuel with
    | some rest => return (foldedBreaks first rest, true)
    | none => return ([], true)
  else return (blanks, false)

/-- The parts of a plain text, each after the blanks before it, and whether it ends behind a line
end. -/
def plainParts (flow : Bool) (indent : Int) :
    (fuel : Nat) → (blanks : List Char) → (crossed : Bool) → Read (List Char × Bool)
  | 0, _, _ => fail
  | fuel + 1, blanks, crossed => do
    if (← peek) == some '#' then return ([], crossed)
    let part := plainRun flow (← get).rest
    if part.isEmpty then return ([], crossed)
    move part.length
    let (next, crossed) ← plainBlanks (fuel + 1)
    let dedented := !flow && decide ((← get).column < indent)
    if next.isEmpty || (← peek) == some '#' || dedented then return (blanks ++ part, crossed)
    let (more, crossed) ← plainParts flow indent fuel next crossed
    return (blanks ++ part ++ more, crossed)

/-- A plain text, and whether a line end stands between it and what follows. -/
def plainScalar (flow : Bool) (outer : Int) : Read (String × Bool) := do
  let (cs, crossed) ← plainParts flow (outer + 1) ((← get).rest.length + 1) [] false
  return (String.ofList cs, crossed)

end Outline.Yaml

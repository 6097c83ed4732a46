import Outline.Address.Link
import Outline.Markdown.Entity
import Outline.Markdown.Table

/-!
# Destinations, titles and definitions of labels

A line `[label]: address "title"` says what address a label stands for. The parts may stand on
several lines.

* `destination?`: the address at the front of a text: between angle brackets, or without blanks and
  with balanced parentheses;
* `TitleScan`, `titleScan`: a title at the front of a text: it is found, it may go on behind the end
  of the text, or there is none;
* `labelKey`: the form in which labels are compared;
* `definitionAt?`: the definition at the front of lines, and the number of its lines.
-/

namespace Outline.Markdown

/-! ## Destinations and titles -/

/-- The inside of angle brackets and what follows; a line may not end there. -/
def bracketed? : List Char → Option (List Char × List Char)
  | [] => none
  | c :: cs =>
    if c == '\n' || c == '<' then none
    else if c == '>' then some ([], cs)
    else if c == '\\' then
      match cs with
      | [] => none
      | d :: ds => (bracketed? ds).map fun r => (c :: d :: r.1, r.2)
    else (bracketed? cs).map fun r => (c :: r.1, r.2)

/-- The characters of an address without angle brackets, and how many parentheses are left open;
nothing if more than 32 are open at once. -/
def bareAddress? : (openCount : Nat) → List Char → Option (List Char × Nat)
  | n, [] => some ([], n)
  | n, c :: cs =>
    if c.toNat ≤ 0x20 || c.toNat == 0x7F then some ([], n)
    else if c == '\\' then
      match cs with
      | [] => some ([c], n)
      | d :: ds =>
        if d == ' ' then some ([], n)
        else (bareAddress? n ds).map fun r => (c :: d :: r.1, r.2)
    else if c == '(' then
      if 32 ≤ n then none else (bareAddress? (n + 1) cs).map fun r => (c :: r.1, r.2)
    else if c == ')' then
      if n = 0 then some ([], 0) else (bareAddress? (n - 1) cs).map fun r => (c :: r.1, r.2)
    else (bareAddress? n cs).map fun r => (c :: r.1, r.2)

/-- The address at the front of a text, and what follows. -/
def destination? (cs : List Char) : Option (List Char × List Char) :=
  match cs with
  | '<' :: rest => (bracketed? rest).map fun r => (unescaped r.1, r.2)
  | _ =>
    match bareAddress? 0 cs with
    | some (address, 0) =>
      if address.isEmpty then none else some (unescaped address, cs.drop address.length)
    | _ => none

/-- What a search for the end of a title finds. -/
inductive TitleScan where
  /-- The end, and what follows. -/
  | found (isEmpty : Bool) (rest : List Char)
  /-- The end of the text. -/
  | unfinished
  | none
deriving DecidableEq

/-- Searches the end of a title that a given character closes. -/
def titleEnd (closing : Char) : (isEmpty : Bool) → List Char → TitleScan
  | _, [] => .unfinished
  | isEmpty, c :: cs =>
    if c == closing then .found isEmpty cs
    else if c == '(' && closing == ')' then .none
    else if c == '\\' then
      match cs with
      | [] => .unfinished
      | _ :: ds => titleEnd closing false ds
    else titleEnd closing false cs

/-- The character that closes a title which another one opens. -/
def titleClosing? (c : Char) : Option Char :=
  if c == '"' || c == '\'' then some c else if c == '(' then some ')' else none

/-- Searches a title at the front of a text. -/
def titleScan (cs : List Char) : TitleScan :=
  match cs with
  | [] => .none
  | c :: cs =>
    match titleClosing? c with
    | some closing => titleEnd closing true cs
    | none => .none

/-! ## Definitions -/

/-- The form in which labels are compared: without regard to capitals, and with single spaces. -/
def labelKey (label : List Char) : List Char :=
  upperChars (lowerChars ([' '].intercalate (words label)))

/-- The label up to its closing bracket, and what follows. It holds no opening bracket. -/
def definitionLabel? : List Char → Option (List Char × List Char)
  | [] => none
  | c :: cs =>
    if c == '[' then none
    else if c == ']' then some ([], cs)
    else if c == '\\' then
      match cs with
      | [] => none
      | d :: ds => (definitionLabel? ds).map fun r => (c :: d :: r.1, r.2)
    else (definitionLabel? cs).map fun r => (c :: r.1, r.2)

/-- Whether nothing but blanks stands before the end of the line. -/
def lineEndsHere (cs : List Char) : Bool :=
  match cs.dropWhile isIndent with
  | [] => true
  | c :: _ => c == '\n'

/-- A text without the blanks and line ends at its front. -/
def skipBlanks (cs : List Char) : List Char := cs.dropWhile fun c => isIndent c || c == '\n'

/-- What follows a title behind an address, if there is one and its line ends behind it; else
nothing if the address is not followed by the end of its line. -/
def afterTitle? (behind : List Char) : Option (List Char) :=
  let next := skipBlanks behind
  let withoutTitle := if lineEndsHere behind then some behind else none
  match titleScan next with
  | .found isEmpty rest =>
    let title := next.take (next.length - rest.length)
    if next.length == behind.length && !title.contains '\n' then withoutTitle
    else if lineEndsHere rest then some rest
    else if isEmpty then none
    else withoutTitle
  | _ => withoutTitle

/-- The label and the address of a definition at the front of a text, and what follows. -/
def definition? (text : List Char) : Option (List Char × List Char × List Char) :=
  match text with
  | '[' :: cs => do
    let (label, cs) ← definitionLabel? cs
    let cs ← match cs with
      | ':' :: cs => some (skipBlanks cs)
      | _ => none
    let line := cs.takeWhile (· != '\n')
    let (address, behind) ← destination? line
    let address := linkAddress address
    if !isSafeAddress address then none
    let rest ← afterTitle? (behind ++ cs.drop line.length)
    let key := labelKey label
    if key.isEmpty then none
    return (key, address, rest)
  | _ => none

/-- The definition at the front of lines: its label, its address and the number of its lines. -/
def definitionAt? (k : Inside) (l : Line) (rest : List Line) :
    Option (List Char × List Char × Nat) :=
  if l.body.head? != some '[' then none
  else
    let bodies := (l :: continuation k false rest).map Line.body
    let text := bodies.flatMap (· ++ ['\n'])
    (definition? text).map fun (label, address, behind) =>
      (label, address, 1 + (text.take (text.length - behind.length)).count '\n')

end Outline.Markdown

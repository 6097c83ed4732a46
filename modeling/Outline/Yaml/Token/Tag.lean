import Outline.Text.Utf8
import Outline.Yaml.Cursor

/-!
# Tokens of YAML: tags, anchors and directives

* `Token`: the tokens; collections in blocks have tokens for their starts and ends although no
  characters stand for them;
* `TagText`: a tag as it is written: its handle, if it has one, and the rest;
* `tagText`: a tag: `!name`, `!!name`, `!handle!name`, `!<full name>` or a lone `!`;
* `anchorName`: the name behind `&` or `*`;
* `directive`: a line behind `%`.
-/

namespace Outline.Yaml

/-! ## Tokens -/

/-- A tag as it is written. -/
structure TagText where
  handle : Option String
  suffix : String

/-- A token. -/
inductive Token where
  /-- The version of the format. -/
  | version (major : Nat)
  /-- A handle and the text that it stands for. -/
  | handle (name replacement : String)
  /-- A directive without a meaning. -/
  | otherDirective
  | documentStart
  | documentEnd
  | streamEnd
  | blockSequenceStart
  | blockMappingStart
  | blockEnd
  | flowSequenceStart
  | flowSequenceEnd
  | flowMappingStart
  | flowMappingEnd
  | blockEntry
  | flowEntry
  | key
  | value
  | alias_ (name : String)
  | anchor (name : String)
  | tag (t : TagText)
  | scalar (text : String) (plain : Bool)

open Read

/-! ## Tags -/

/-- A character of an address, as tags may have them. -/
def isUriChar (c : Char) : Bool := isAsciiAlnum c || "-;/?:@&=+$,_.!~*'()[]%".toList.contains c

/-- Bytes written with percent signs, as many as follow each other. -/
def percentBytes : List Char → Option (List Nat)
  | '%' :: a :: b :: cs => do
    if !(isHexDigit a && isHexDigit b) then none
    return hexValue [a, b] :: (← percentBytes cs)
  | '%' :: _ => none
  | _ => some []

/-- The characters of an address, with the bytes written by percent signs decoded. -/
def uriChars : (fuel : Nat) → Read (List Char)
  | 0 => fail
  | fuel + 1 => do
    let plain ← takeWhile fun c => isUriChar c && c != '%'
    if (← peek) == some '%' then
      match percentBytes (← get).rest with
      | none => fail
      | some bytes =>
        match Utf8.decode bytes with
        | .error _ => fail
        | .ok text =>
          move (3 * bytes.length)
          return plain ++ text ++ (← uriChars fuel)
    else return plain

/-- An address that is not empty. -/
def uri : Read String := do
  let before := (← get).index
  let cs ← uriChars ((← get).rest.length + 1)
  if (← get).index == before then fail
  return String.ofList cs

/-- A handle: `!`, or a name between two of them. -/
def handleName : Read String := do
  if (← peek) != some '!' then fail
  let k ← get
  if k.at? 1 == some ' ' then
    move 1
    return "!"
  let name := (k.rest.drop 1).takeWhile isNameChar
  if k.at? (1 + name.length) == some '!' then
    move (name.length + 2)
    return String.ofList ('!' :: name ++ ['!'])
  else fail

/-- Whether a second exclamation mark follows within the word. -/
def hasHandle (cs : List Char) : Bool :=
  ((cs.drop 1).takeWhile fun c => !isGap (some c)).contains '!'

/-- A tag. -/
def tagText : Read TagText := do
  let k ← get
  let tag ← match k.at? 1 with
    | some '<' => do
      move 2
      let suffix ← uri
      if (← peek) != some '>' then fail
      move 1
      pure (⟨none, suffix⟩ : TagText)
    | c => do
      if isBlankGap c then
        move 1
        pure ⟨none, "!"⟩
      else if hasHandle k.rest then do
        let handle ← handleName
        pure ⟨some handle, ← uri⟩
      else do
        move 1
        pure ⟨some "!", ← uri⟩
  if !isGap (← peek) then fail
  return tag

/-! ## Anchors -/

/-- The end of the name of an anchor. -/
def endsAnchor (c : Option Char) : Bool :=
  isBlankGap c || (c.map "?:,]\x7d%@\x60".toList.contains).getD true

/-- The name behind `&` or `*`. -/
def anchorName : Read String := do
  move 1
  let name ← takeWhile isNameChar
  if name.isEmpty || !endsAnchor (← peek) then fail
  return String.ofList name

/-! ## Directives -/

/-- A number of a version. -/
def versionNumber : Read Nat := do
  let ds ← takeWhile isAsciiDigit
  if ds.isEmpty then fail
  if maxDigits < ds.length then throw (.tooManyDigits (some ds.length))
  return natOfDigits ds

/-- A line behind `%`. -/
def directive : Read Token := do
  move 1
  let name ← takeWhile isNameChar
  if name.isEmpty || !isGap (← peek) then fail
  let token ←
    if name == "YAML".toList then do
      spaces
      let major ← versionNumber
      if (← peek) != some '.' then fail
      move 1
      let _ ← versionNumber
      if !isGap (← peek) then fail
      pure (Token.version major)
    else if name == "TAG".toList then do
      spaces
      let handle ← handleName
      if (← peek) != some ' ' then fail
      spaces
      let replacement ← uri
      if !isGap (← peek) then fail
      pure (Token.handle handle replacement)
    else do
      let _ ← takeWhile fun c => !isBreakChar c
      pure Token.otherDirective
  restOfLine
  return token

end Outline.Yaml

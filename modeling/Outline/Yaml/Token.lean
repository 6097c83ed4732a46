import Outline.Yaml.Token.Scalar
import Outline.Yaml.Token.Tag

/-!
# Cutting a YAML text into tokens

Outside brackets, indentation opens and closes collections. Whether a node is the key of an entry
shows only at the colon behind it: each place where a key could have begun is remembered, and the
colon puts a key token there. A key may not go on over a line end, nor over more than 1024
characters.

* `Scan`: what is known at a place of the text;
* `Scan.next`: one more token;
* `tokens`: the tokens of a text.
-/

namespace Outline.Yaml

/-- A place where a key may have begun. It must have been one if `needed`. -/
structure KeyPlace where
  /-- The number of tokens before it. -/
  before : Nat
  needed : Bool
  index : Nat
  line : Nat
  column : Nat

/-- What is known at a place: the brackets around it, the indentation of the collection around it and
of those around that one, whether a key may begin here, the places where keys may have begun, by
the number of brackets around them, and the tokens so far, the latest first. -/
structure Scan where
  cursor : Cursor
  depth : Nat := 0
  indent : Int := -1
  outer : List Int := []
  keyAllowed : Bool := true
  keys : List (Nat × KeyPlace) := []
  tokens : List Token := []
  count : Nat := 0

/-- A step of cutting. -/
abbrev Scanning := StateT Scan (Except Fault)

namespace Scan

/-- The text is no YAML. -/
def fail {α : Type} : Scanning α := throw .notYaml

/-- Reads something at the cursor. -/
def read {α : Type} (r : Read α) : Scanning α := do
  let s ← get
  let (a, k) ← r.run s.cursor
  set { s with cursor := k }
  return a

/-- Adds a token. -/
def push (t : Token) : Scanning Unit :=
  modify fun s => { s with tokens := t :: s.tokens, count := s.count + 1 }

/-- Adds tokens at a place before later ones. -/
def insert (before : Nat) (ts : List Token) : Scanning Unit :=
  modify fun s =>
    let later := s.count - before
    { s with
      tokens := s.tokens.take later ++ ts.reverse ++ s.tokens.drop later
      count := s.count + ts.length }

/-- Whether a key may begin here from now on. -/
def allowKey (b : Bool) : Scanning Unit := modify fun s => { s with keyAllowed := b }

/-! ## Places of keys -/

/-- Forgets the places that are too far back for a key. -/
def dropStaleKeys : Scanning Unit := do
  let s ← get
  let stale (e : Nat × KeyPlace) : Bool :=
    e.2.line != s.cursor.line || 1024 < s.cursor.index - e.2.index
  if s.keys.any fun e => stale e && e.2.needed then fail
  set { s with keys := s.keys.filter fun e => !stale e }

/-- The place where a key within the present brackets may have begun. -/
def keyHere? (s : Scan) : Option KeyPlace := (s.keys.find? (·.1 == s.depth)).map (·.2)

/-- Forgets the place where a key within the present brackets may have begun. -/
def forgetKey : Scanning Unit := do
  let s ← get
  if (s.keyHere?.map (·.needed)).getD false then fail
  set { s with keys := s.keys.filter (·.1 != s.depth) }

/-- Remembers this place as one where a key may have begun. -/
def rememberKey : Scanning Unit := do
  if (← get).keyAllowed then
    forgetKey
    modify fun s =>
      let k := s.cursor
      let needed := s.depth == 0 && s.indent == (k.column : Int)
      { s with keys := (s.depth, ⟨s.count, needed, k.index, k.line, k.column⟩) :: s.keys }

/-! ## Indentation -/

/-- Closes the collections that are indented deeper than a column. -/
def closeDeeper (column : Int) : Scanning Unit := do
  let s ← get
  if s.depth == 0 then
    let all := s.indent :: s.outer
    let closed := (all.takeWhile fun i => decide (column < i)).length
    let kept := all.drop closed
    set { s with
      indent := kept.headD (-1)
      outer := kept.drop 1
      tokens := List.replicate closed Token.blockEnd ++ s.tokens
      count := s.count + closed }

/-- Opens a collection at a column if it is deeper than the present one, and tells whether it is. -/
def openAt (column : Nat) : Scanning Bool := do
  let s ← get
  if s.indent < column then
    set { s with indent := column, outer := s.indent :: s.outer }
    return true
  else return false

/-! ## Tokens -/

/-- Goes to the next token, over spaces, comments and line ends. -/
def toNextToken : (fuel : Nat) → Scanning Unit
  | 0 => fail
  | fuel + 1 => do
    read Read.spaces
    read Read.comment
    let b ← read Read.lineBreak
    if !b.isEmpty then
      if (← get).depth == 0 then allowKey true
      toNextToken fuel

/-- A token of some characters that closes all collections in blocks. -/
def boundary (width : Nat) (t : Token) : Scanning Unit := do
  closeDeeper (-1)
  forgetKey
  allowKey false
  read (Read.move width)
  push t

/-- An opening bracket. -/
def opening (t : Token) : Scanning Unit := do
  rememberKey
  modify fun s => { s with depth := s.depth + 1 }
  allowKey true
  read (Read.move 1)
  push t

/-- A closing bracket. -/
def closing (t : Token) : Scanning Unit := do
  if (← get).depth == 0 then fail
  forgetKey
  modify fun s => { s with depth := s.depth - 1 }
  allowKey false
  read (Read.move 1)
  push t

/-- A comma within brackets. -/
def comma : Scanning Unit := do
  allowKey true
  forgetKey
  read (Read.move 1)
  push .flowEntry

/-- The hyphen before an item. -/
def hyphen : Scanning Unit := do
  let s ← get
  if s.depth == 0 then
    if !s.keyAllowed then fail
    if ← openAt s.cursor.column then push .blockSequenceStart
  allowKey true
  forgetKey
  read (Read.move 1)
  push .blockEntry

/-- The question mark before a key. -/
def questionMark : Scanning Unit := do
  let s ← get
  if s.depth == 0 then
    if !s.keyAllowed then fail
    if ← openAt s.cursor.column then push .blockMappingStart
  allowKey (s.depth == 0)
  forgetKey
  read (Read.move 1)
  push .key

/-- The colon behind a key. -/
def colon : Scanning Unit := do
  let s ← get
  match s.keyHere? with
  | some k =>
    modify fun s => { s with keys := s.keys.filter (·.1 != s.depth) }
    let opens ← if s.depth == 0 then openAt k.column else pure false
    insert k.before (if opens then [.blockMappingStart, .key] else [.key])
    allowKey false
  | none =>
    if s.depth == 0 then
      if !s.keyAllowed then fail
      if ← openAt s.cursor.column then push .blockMappingStart
    allowKey (s.depth == 0)
    forgetKey
  read (Read.move 1)
  push .value

/-- A token that a key may begin with. -/
def keyStart (r : Read Token) : Scanning Unit := do
  rememberKey
  allowKey false
  push (← read r)

/-- A text behind `|` or `>`. -/
def block (folded : Bool) : Scanning Unit := do
  allowKey true
  forgetKey
  let text ← read (blockScalar (← get).indent folded)
  push (.scalar text false)

/-- A plain text. -/
def plain : Scanning Unit := do
  rememberKey
  let s ← get
  let (text, crossed) ← read (plainScalar (s.depth != 0) s.indent)
  allowKey crossed
  push (.scalar text true)

/-- Whether a plain text can begin with a character, given the one behind it. -/
def beginsPlain (flow : Bool) (c : Char) (next : Option Char) : Bool :=
  !(isBlankGap (some c) || "-?:,[]\x7b\x7d#&*!|>'\"%@\x60".toList.contains c) ||
    (!isBlankGap next && (c == '-' || (!flow && (c == '?' || c == ':'))))

/-- Adds the token at the cursor. Tells whether it is one before the end of the text. -/
def next (fuel : Nat) : Scanning Bool := do
  toNextToken fuel
  dropStaleKeys
  closeDeeper (← get).cursor.column
  let s ← get
  let block0 := s.depth == 0
  match s.cursor.rest with
  | [] =>
    boundary 0 .streamEnd
    return false
  | c :: cs =>
    let gap := isBlankGap cs.head?
    if c == '%' && s.cursor.column == 0 then do
      closeDeeper (-1)
      forgetKey
      allowKey false
      push (← read directive)
    else if c == '-' && s.cursor.column == 0 && s.cursor.separates then boundary 3 .documentStart
    else if c == '.' && s.cursor.column == 0 && s.cursor.separates then boundary 3 .documentEnd
    else if c == '[' then opening .flowSequenceStart
    else if c == '{' then opening .flowMappingStart
    else if c == ']' then closing .flowSequenceEnd
    else if c == '}' then closing .flowMappingEnd
    else if c == ',' then comma
    else if c == '-' && gap then hyphen
    else if c == '?' && (!block0 || gap) then questionMark
    else if c == ':' && (!block0 || gap) then colon
    else if c == '*' then keyStart (do return .alias_ (← anchorName))
    else if c == '&' then keyStart (do return .anchor (← anchorName))
    else if c == '!' then keyStart (do return .tag (← tagText))
    else if c == '|' && block0 then block false
    else if c == '>' && block0 then block true
    else if c == '\'' || c == '"' then keyStart (do return .scalar (← quotedScalar c) false)
    else if beginsPlain (!block0) c cs.head? then plain
    else fail
    return true

/-- Adds all tokens. -/
def all (width : Nat) : (fuel : Nat) → Scanning Unit
  | 0 => fail
  | fuel + 1 => do
    if ← next width then all width fuel

end Scan

/-- The tokens of a text. -/
def tokens (text : List Char) : Except Fault (List Token) := do
  if !text.all isYamlChar then throw .notYaml
  let start := Cursor.start text
  let cursor := if text.head? == some '\uFEFF' then start.step else start
  let fuel := text.length + 2
  let ((), s) ← (Scan.all fuel fuel).run ⟨cursor, 0, -1, [], true, [], [], 0⟩
  return s.tokens.reverse

end Outline.Yaml

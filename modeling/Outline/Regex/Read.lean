import Outline.Regex.Basic
import Outline.Text.Quoted

/-!
# Reading patterns

A pattern is cut into characters and escapes of two characters; these are read from left to right
into the tree of the pattern. Each fault names its place.

* `tokens`: characters and escapes with their places;
* `Reading`: what is left to read, and the groups seen so far;
* `readChoice`, `readRow`: alternatives, and parts in a row;
* `parse`: the parts of a whole pattern with its switches.
-/

namespace Outline.Regex

/-- A character, an escape, or a backslash that ends the pattern. -/
inductive Tok where
  | plain (c : Char)
  | escape (c : Char)
  | dangling
deriving DecidableEq

/-- The number of characters of a token. -/
def Tok.size : Tok → Nat
  | .escape _ => 2
  | _ => 1

/-- The characters of a token. -/
def Tok.chars : Tok → List Char
  | .plain c => [c]
  | .escape c => ['\\', c]
  | .dangling => ['\\']

/-- Cuts a pattern into tokens. -/
def tokens : List Char → List Tok
  | [] => []
  | c :: cs =>
    if c == '\\' then
      match cs with
      | [] => [.dangling]
      | d :: rest => .escape d :: tokens rest
    else .plain c :: tokens cs

/-- What is left to read and the place of it; the switches turned on for the whole pattern; the
widths of the groups, unknown while a group is open; the names of groups; the number of groups
before an open look-behind; and the groups that conditions ask for, with the place of the first. -/
structure Reading where
  rest : List Tok
  place : Nat
  flags : List Char := []
  widths : List (Option (Nat × Nat)) := []
  names : List (String × Nat) := []
  behindFrom : Option Nat := none
  conditions : List (Nat × Nat) := []

/-- Steps of reading. -/
abbrev Reader := StateT Reading (Except Error)

/-- A fault at a place some characters before the present one. -/
def failAt {α : Type} (what : String) (back : Nat := 0) : Reader α := do
  throw (.malformed what (some ((← get).place - back)))

/-- The next token, which stays. -/
def peek : Reader (Option Tok) := do return (← get).rest.head?

/-- Goes past the next token. A backslash that would come next must not end the pattern. -/
def advance : Reader Unit := do
  let s ← get
  match s.rest with
  | [] => pure ()
  | t :: rest =>
    set { s with rest := rest, place := s.place + t.size }
    if rest.head? = some .dangling then
      throw (.malformed "bad escape (end of pattern)" (some (s.place + t.size)))

/-- Takes the next token. -/
def next : Reader (Option Tok) := do
  let t ← peek
  advance
  return t

/-- Takes the next token if it is the given character. -/
def accept (c : Char) : Reader Bool := do
  if (← peek) = some (.plain c) then
    advance
    return true
  else return false

/-- Takes up to `n` characters that satisfy a test. -/
def takeUpTo (p : Char → Bool) : Nat → Reader (List Char)
  | 0 => return []
  | n + 1 => do
    match ← peek with
    | some (.plain c) =>
      if p c then
        advance
        return c :: (← takeUpTo p n)
      else return []
    | _ => return []

/-- Takes the characters of a name up to a closing character. -/
def takeName (close : Char) (what : String) : (fuel : Nat) → List Char → Reader (List Char)
  | 0, acc => return acc
  | fuel + 1, acc => do
    match ← next with
    | none =>
      if acc.isEmpty then failAt ("missing " ++ what)
      else failAt ("missing " ++ String.ofList [close] ++ ", unterminated name") acc.length
    | some t =>
      if t = .plain close then
        if acc.isEmpty then failAt ("missing " ++ what) 1 else return acc
      else takeName close what fuel (acc ++ t.chars)

/-- Takes a name up to a closing character. -/
def readName (close : Char) (what : String) : Reader (List Char) := do
  takeName close what ((← get).rest.length + 1) []

/-- Whether characters form a name: word characters, the first of them no digit. -/
def isName (cs : List Char) : Bool :=
  match cs with
  | [] => false
  | c :: _ => !isDigit c && cs.all isWordChar

/-- A name of a group must be one. -/
def checkName (name : List Char) : Reader Unit := do
  if isName name then pure ()
  else failAt ("bad character in group name " ++ shown (String.ofList name)) (name.length + 1)

/-- Whether a group exists and is closed. -/
def isClosed (g : Nat) : Reader Bool := do
  return ((← get).widths[g - 1]?).join.isSome && g != 0

/-- A look-behind may only speak of groups that were closed before it. -/
def checkBehind (g : Nat) : Reader Unit := do
  match (← get).behindFrom with
  | none => pure ()
  | some n =>
    if !(← isClosed g) then failAt "cannot refer to an open group"
    if n ≤ g then failAt "cannot refer to group defined in the same lookbehind subpattern"

/-! ## Escapes -/

/-- What an escape stands for. -/
inductive Escape where
  | char (n : Nat)
  | category (k : Category) (negated : Bool)
  | anchor (a : Anchor)
  | group (g : Nat)

/-- The letters of control characters. -/
def controlOf? (c : Char) : Option Nat :=
  match c with
  | 'a' => some 7
  | 'b' => some 8
  | 'f' => some 12
  | 'n' => some 10
  | 'r' => some 13
  | 't' => some 9
  | 'v' => some 11
  | '\\' => some 92
  | _ => none

/-- The letters of classes. -/
def categoryOf? (c : Char) : Option Escape :=
  match c with
  | 'd' => some (.category .digit false)
  | 'D' => some (.category .digit true)
  | 's' => some (.category .blank false)
  | 'S' => some (.category .blank true)
  | 'w' => some (.category .word false)
  | 'W' => some (.category .word true)
  | _ => none

/-- The letters of places. -/
def anchorOf? (c : Char) : Option Escape :=
  match c with
  | 'A' => some (.anchor .textStart)
  | 'b' => some (.anchor .wordEdge)
  | 'B' => some (.anchor .noWordEdge)
  | 'Z' => some (.anchor .textEnd)
  | _ => none

/-- A digit below 8. -/
def isOctal (c : Char) : Bool := 48 ≤ c.toNat && c.toNat ≤ 55

/-- A hexadecimal digit. -/
def isHexDigit (c : Char) : Bool :=
  isAsciiDigit c || (65 ≤ c.toNat && c.toNat ≤ 70) || (97 ≤ c.toNat && c.toNat ≤ 102)

/-- The number that octal digits write. -/
def octalValue (ds : List Char) : Nat := ds.foldl (fun n c => 8 * n + (c.toNat - 48)) 0

/-- An escape spelled by a letter and exactly `n` hexadecimal digits. -/
def hexEscape (c : Char) (n : Nat) : Reader Escape := do
  let ds ← takeUpTo isHexDigit n
  let spelled := String.ofList ('\\' :: c :: ds)
  if ds.length < n then failAt ("incomplete escape " ++ spelled) (ds.length + 2)
  else if 0x10FFFF < hexValue ds then failAt ("bad escape " ++ spelled) (ds.length + 2)
  else return .char (hexValue ds)

/-- An octal escape of three digits must name a byte. -/
def octalEscape (ds : List Char) : Reader Escape := do
  if 255 < octalValue ds then
    failAt ("octal escape value " ++ String.ofList ('\\' :: ds) ++ " outside of range 0-0o377")
      (ds.length + 1)
  else return .char (octalValue ds)

/-- The escapes that read the same inside and outside of sets. -/
def commonEscape (c : Char) : Reader Escape := do
  if c == 'x' then hexEscape c 2
  else if c == 'u' then hexEscape c 4
  else if c == 'U' then hexEscape c 8
  else if c == 'N' then do
    if ← accept '{' then
      let name ← readName '}' "character name"
      failAt ("undefined character name " ++ shown (String.ofList name)) (name.length + 4)
    else failAt "missing \x7b"
  else if isAsciiLetter c || isAsciiDigit c then
    failAt ("bad escape " ++ String.ofList ['\\', c]) 2
  else return .char c.toNat

/-- An escape inside a set. -/
def setEscape (c : Char) : Reader Escape := do
  match controlOf? c, categoryOf? c with
  | some n, _ => return .char n
  | none, some e => return e
  | none, none =>
    if isOctal c then octalEscape (c :: (← takeUpTo isOctal 2)) else commonEscape c

/-- A reference to a group, or an octal escape of three digits. -/
def digitEscape (c : Char) : Reader Escape := do
  let ds ← takeUpTo isAsciiDigit 1
  let third ← match ds with
    | [d] => if isOctal c && isOctal d then takeUpTo isOctal 1 else pure []
    | _ => pure []
  if !third.isEmpty then octalEscape (c :: ds ++ third)
  else
    let g := natOfDigits (c :: ds)
    if g < (← get).widths.length + 1 then
      if !(← isClosed g) then failAt "cannot refer to an open group" (ds.length + 2)
      checkBehind g
      return .group g
    else failAt ("invalid group reference " ++ toString g) (ds.length + 1)

/-- An escape outside of sets. -/
def plainEscape (c : Char) : Reader Escape := do
  match categoryOf? c, anchorOf? c, controlOf? c with
  | some e, _, _ => return e
  | none, some e, _ => return e
  | none, none, some n => return .char n
  | none, none, none =>
    if c == '0' then return .char (octalValue (← takeUpTo isOctal 2))
    else if isAsciiDigit c then digitEscape c
    else commonEscape c

/-- The part that an escape stands for. -/
def Escape.node : Escape → Node
  | .char n => .char n false
  | .category k negated => .set [.category k negated] false
  | .anchor a => .anchor a
  | .group g => .again g

/-! ## Sets -/

/-- The member of a set that an escape stands for. -/
def Escape.item : Escape → SetItem
  | .char n => .char n
  | .category k negated => .category k negated
  | _ => .char 0

/-- One character or escape of a set. -/
def setMember (t : Tok) : Reader SetItem := do
  match t with
  | .plain c => return .char c.toNat
  | .escape c => return (← setEscape c).item
  | .dangling => return .char 92

/-- The members of a set up to the closing bracket; `here` is where the set began. -/
def setMembers (here : Nat) : (fuel : Nat) → List SetItem → Reader (List SetItem)
  | 0, acc => return acc
  | fuel + 1, acc => do
    match ← next with
    | none => failAt "unterminated character set" ((← get).place - here)
    | some this =>
      if this = .plain ']' && !acc.isEmpty then return acc
      let a ← setMember this
      if ← accept '-' then
        match ← next with
        | none => failAt "unterminated character set" ((← get).place - here)
        | some that =>
          if that = .plain ']' then return acc ++ [a, .char 45]
          let b ← setMember that
          let text := "bad character range " ++ String.ofList (this.chars ++ '-' :: that.chars)
          let back := this.size + 1 + that.size
          match a, b with
          | .char lo, .char hi =>
            if hi < lo then failAt text back
            else setMembers here fuel (acc ++ [.range lo hi])
          | _, _ => failAt text back
      else setMembers here fuel (acc ++ [a])

/-- A set, after its opening bracket. -/
def readSet : Reader Node := do
  let here := (← get).place - 1
  let negated ← accept '^'
  let items ← setMembers here ((← get).rest.length + 1) []
  match items with
  | [.char n] => return .char n negated
  | _ => return .set items negated

/-! ## Switches -/

/-- The letters of switches. -/
def isFlag (c : Char) : Bool := ['i', 'L', 'm', 's', 'x', 'a', 't', 'u'].contains c

/-- The switches of which one excludes the others. -/
def isKindFlag (c : Char) : Bool := ['a', 'L', 'u'].contains c

/-- A letter. -/
def isLetter (c : Char) : Bool := isAlnum c && !isDigit c

/-- What a wrong character among switches is called. -/
def flagFault (missing : String) (t : Tok) : String :=
  match t with
  | .plain c => if isLetter c then "unknown flag" else missing
  | _ => missing

/-- The switches turned on, and the character that ends them. -/
def flagsOn : (fuel : Nat) → Char → List Char → Reader (List Char × Char)
  | 0, c, acc => return (acc, c)
  | fuel + 1, c, acc => do
    if c == 'L' then failAt "bad inline flags: cannot use 'L' flag with a str pattern"
    let acc := if acc.contains c then acc else acc ++ [c]
    if isKindFlag c && acc.any (fun d => isKindFlag d && d != c) then
      failAt "bad inline flags: flags 'a', 'u' and 'L' are incompatible"
    let missing := "missing -, : or )"
    match ← next with
    | none => failAt missing
    | some t =>
      match t with
      | .plain d =>
        if d == ')' || d == '-' || d == ':' then return (acc, d)
        else if isFlag d then flagsOn fuel d acc
        else failAt (flagFault missing t) 1
      | _ => failAt missing t.size

/-- The switches turned off, up to a colon. -/
def flagsOff : (fuel : Nat) → Char → List Char → Reader (List Char)
  | 0, _, acc => return acc
  | fuel + 1, c, acc => do
    if isKindFlag c then
      failAt "bad inline flags: cannot turn off flags 'a', 'u' and 'L'"
    let acc := if acc.contains c then acc else acc ++ [c]
    match ← next with
    | none => failAt "missing :"
    | some t =>
      match t with
      | .plain d =>
        if d == ':' then return acc
        else if isFlag d then flagsOff fuel d acc
        else failAt (flagFault "missing :" t) 1
      | _ => failAt "missing :" t.size

/-- Reads switches from their first character on. Nothing: they hold for the whole pattern. -/
def readFlags (first : Char) : Reader (Option (List Char × List Char)) := do
  let fuel := (← get).rest.length + 2
  let (on, close) ← if first == '-' then pure ([], '-') else flagsOn fuel first []
  if close == ')' then
    modify fun s => { s with flags := s.flags ++ on.filter (!s.flags.contains ·) }
    return none
  if on.contains 't' then failAt "bad inline flags: cannot turn on global flag" 1
  let off ← if close == '-' then do
      match ← next with
      | none => failAt "missing flag"
      | some t =>
        match t with
        | .plain d => if isFlag d then flagsOff fuel d [] else failAt (flagFault "missing flag" t) 1
        | _ => failAt "missing flag" t.size
    else pure []
  if off.contains 't' then failAt "bad inline flags: cannot turn off global flag" 1
  if on.any off.contains then failAt "bad inline flags: flag turned on and off" 1
  return some (on, off)

/-! ## Parts -/

/-- Whether a character is left out of a verbose pattern. -/
def isLayout (c : Char) : Bool := c == ' ' || (9 ≤ c.toNat && c.toNat ≤ 13)

/-- Goes past a comment of a verbose pattern. -/
def skipComment : (fuel : Nat) → Reader Unit
  | 0 => pure ()
  | fuel + 1 => do
    match ← next with
    | none => pure ()
    | some t => if t = .plain '\n' then pure () else skipComment fuel

/-- Goes past a comment in brackets that began at `start`. -/
def skipNote (start : Nat) : (fuel : Nat) → Reader Unit
  | 0 => pure ()
  | fuel + 1 => do
    if (← peek).isNone then failAt "missing ), unterminated comment" ((← get).place - start)
    if (← next) = some (.plain ')') then pure () else skipNote start fuel

/-- The number of turns that digits write. -/
def readTurns (ds : List Char) : Reader Nat := do
  if maxDigits < ds.length then throw (.tooManyDigits ds.length)
  if turnLimit ≤ natOfDigits ds then throw .tooManyTurns
  return natOfDigits ds

/-- The bounds of a repetition. Nothing: an opening brace that stands for itself. -/
def readBounds (c : Char) : Reader (Option (Nat × Option Nat)) := do
  if c == '?' then return some (0, some 1)
  else if c == '*' then return some (0, none)
  else if c == '+' then return some (1, none)
  else
    let before ← get
    if (← peek) = some (.plain '}') then return none
    let lo ← takeUpTo isAsciiDigit before.rest.length
    let hi ← if ← accept ',' then takeUpTo isAsciiDigit before.rest.length else pure lo
    if !(← accept '}') then
      set before
      return none
    let least ← readTurns lo
    if hi.isEmpty then return some (least, none)
    let most ← readTurns hi
    if most < least then
      failAt "min repeat greater than max repeat" ((← get).place - before.place)
    return some (least, some most)

/-- The sign after a repetition that says how it chooses. -/
def readGreed : Reader Greed := do
  if ← accept '?' then return .lazy
  if ← accept '+' then return .possessive
  return .greedy

/-- Puts a repetition around the last part. -/
def repeatLast (here : Nat) (bounds : Nat × Option Nat) (acc : List Node) :
    Reader (List Node) := do
  let back := (← get).place - here + 1
  match acc.getLast? with
  | none => failAt "nothing to repeat" back
  | some item =>
    let body ← match item with
      | .anchor _ => failAt "nothing to repeat" back
      | .turns _ _ _ _ => failAt "multiple repeat" back
      | .group none [] [] body => pure body
      | other => pure [other]
    let greed ← readGreed
    return acc.dropLast ++ [.turns greed bounds.1 bounds.2 body]

/-- The closing bracket of a part that began at `start`. -/
def closeGroup (start : Nat) : Reader Unit := do
  if !(← accept ')') then
    failAt "missing ), unterminated subpattern" ((← get).place - start)

/-- Opens a group, with a name if it has one. -/
def openGroup (name : Option (List Char)) : Reader Nat := do
  let s ← get
  let g := s.widths.length + 1
  set { s with widths := s.widths ++ [none] }
  match name with
  | none => pure ()
  | some cs =>
    let text := String.ofList cs
    match s.names.lookup text with
    | some old =>
      failAt ("redefinition of group name " ++ shown text ++ " as group " ++ toString g ++
        "; was group " ++ toString old) (cs.length + 1)
    | none => modify fun s => { s with names := s.names ++ [(text, g)] }
  return g

/-- The group that a condition asks for. -/
def readCondition : Reader Nat := do
  let name ← readName ')' "group name"
  let bad := "bad character in group name " ++ shown (String.ofList name)
  let text := String.ofList name
  let g ←
    if isName name then
      match (← get).names.lookup text with
      | some g => pure g
      | none => failAt ("unknown group name " ++ shown text) (name.length + 1)
    else if name.all isDigit then do
      let g := natOfDigits name
      if g = 0 then failAt "bad group number" (name.length + 1)
      if 2147483647 ≤ g then
        failAt ("invalid group reference " ++ toString g) (name.length + 1)
      modify fun s =>
        if s.conditions.any (·.1 == g) then s
        else { s with conditions := s.conditions ++ [(g, s.place - name.length - 1)] }
      pure g
    else failAt bad (name.length + 1)
  checkBehind g
  return g

/-- A group without capture and without switches is only a bracket: its parts join the row. -/
def unwrap (nodes : List Node) : List Node :=
  nodes.flatMap fun n =>
    match n with
    | .group none [] [] body => body
    | other => [other]

/-- What a bracket opens. -/
inductive Opened where
  | capture (name : Option (List Char))
  | bare
  | atomic
  | flags (on off : List Char)
  | look (ahead negated : Bool) (behindBefore : Option Nat)
  | condition (g : Nat)
  | node (n : Node)
  | nothing

/-- Reads what stands between an opening bracket and the parts inside it. `alone`: nothing stands
before it in the whole pattern. -/
def readOpening (start : Nat) (alone : Bool) : Reader Opened := do
  if !(← accept '?') then return .capture none
  match ← next with
  | none => failAt "unexpected end of pattern"
  | some t =>
    match t with
    | .plain 'P' =>
      if ← accept '<' then
        let name ← readName '>' "group name"
        checkName name
        return .capture (some name)
      else if ← accept '=' then
        let name ← readName ')' "group name"
        checkName name
        match (← get).names.lookup (String.ofList name) with
        | none =>
          failAt ("unknown group name " ++ shown (String.ofList name)) (name.length + 1)
        | some g =>
          if !(← isClosed g) then failAt "cannot refer to an open group" (name.length + 1)
          checkBehind g
          return .node (.again g)
      else
        match ← next with
        | none => failAt "unexpected end of pattern"
        | some u => failAt ("unknown extension ?P" ++ String.ofList u.chars) (u.size + 2)
    | .plain ':' => return .bare
    | .plain '#' =>
      skipNote start ((← get).rest.length + 1)
      return .nothing
    | .plain '=' => return .look true false none
    | .plain '!' => return .look true true none
    | .plain '<' =>
      match ← next with
      | none => failAt "unexpected end of pattern"
      | some u =>
        let negated := u = .plain '!'
        if negated || u = .plain '=' then
          let s ← get
          if s.behindFrom.isNone then set { s with behindFrom := some (s.widths.length + 1) }
          return .look false negated s.behindFrom
        else failAt ("unknown extension ?<" ++ String.ofList u.chars) (u.size + 2)
    | .plain '(' => return .condition (← readCondition)
    | .plain '>' => return .atomic
    | .plain c =>
      if isFlag c || c == '-' then
        match ← readFlags c with
        | none =>
          let back := (← get).place - start
          if !alone then failAt "global flags not at the start of the expression" back
          return .nothing
        | some (on, off) => return .flags on off
      else failAt ("unknown extension ?" ++ String.ofList [c]) 2
    | other => failAt ("unknown extension ?" ++ String.ofList other.chars) (other.size + 1)

mutual

/-- Alternatives. `outer`: these are the alternatives of the whole pattern. -/
def readChoice (verbose outer : Bool) :
    (fuel : Nat) → List (List Node) → Reader (List Node)
  | 0, _ => return []
  | fuel + 1, acc => do
    let row ← readRow verbose (outer && acc.isEmpty) fuel []
    if ← accept '|' then
      let flags := (← get).flags
      let verbose := if outer then flags.contains 'x' else verbose
      readChoice verbose outer fuel (acc ++ [row])
    else
      match acc with
      | [] => return row
      | _ => return [.branch (acc ++ [row])]

/-- Parts in a row, up to a bar, a closing bracket or the end. `first`: nothing of the whole
pattern has been read before the row. -/
def readRow (verbose first : Bool) : (fuel : Nat) → List Node → Reader (List Node)
  | 0, acc => return unwrap acc
  | fuel + 1, acc => do
    match ← peek with
    | none => return unwrap acc
    | some (.plain '|') => return unwrap acc
    | some (.plain ')') => return unwrap acc
    | some t =>
      advance
      match t with
      | .dangling => return unwrap acc
      | .escape c =>
        let e ← plainEscape c
        readRow verbose first fuel (acc ++ [e.node])
      | .plain c =>
        if verbose && isLayout c then readRow verbose first fuel acc
        else if verbose && c == '#' then
          skipComment ((← get).rest.length + 1)
          readRow verbose first fuel acc
        else if c == '[' then
          let n ← readSet
          readRow verbose first fuel (acc ++ [n])
        else if c == '.' then readRow verbose first fuel (acc ++ [.any])
        else if c == '^' then readRow verbose first fuel (acc ++ [.anchor .lineStart])
        else if c == '$' then readRow verbose first fuel (acc ++ [.anchor .lineEnd])
        else if c == '*' || c == '+' || c == '?' || c == '{' then
          let here := (← get).place
          match ← readBounds c with
          | none => readRow verbose first fuel (acc ++ [.char c.toNat false])
          | some bounds =>
            let acc ← repeatLast here bounds acc
            readRow verbose first fuel acc
        else if c == '(' then
          let start := (← get).place - 1
          match ← readOpening start (first && acc.isEmpty) with
          | .nothing =>
            let flags := (← get).flags
            let verbose := verbose || (first && acc.isEmpty && flags.contains 'x')
            readRow verbose first fuel acc
          | .node n => readRow verbose first fuel (acc ++ [n])
          | .look ahead negated before =>
            let body ← readChoice verbose false fuel []
            if !ahead && before.isNone then modify fun s => { s with behindFrom := none }
            closeGroup start
            let widths := (← get).widths
            let behind := if ahead then none else some (seqWidth widths body).1
            readRow verbose first fuel (acc ++ [.look behind negated body])
          | .condition g =>
            let yes ← readRow verbose false fuel []
            let no ← if ← accept '|' then do
                let no ← readRow verbose false fuel []
                if (← peek) = some (.plain '|') then
                  failAt "conditional backref with more than two branches"
                pure (some no)
              else pure none
            closeGroup start
            readRow verbose first fuel (acc ++ [.given g yes no])
          | .atomic =>
            let body ← readChoice verbose false fuel []
            closeGroup start
            readRow verbose first fuel (acc ++ [.atomic body])
          | .bare =>
            let body ← readChoice verbose false fuel []
            closeGroup start
            readRow verbose first fuel (acc ++ [.group none [] [] body])
          | .flags on off =>
            let inner := (verbose || on.contains 'x') && !off.contains 'x'
            let body ← readChoice inner false fuel []
            closeGroup start
            readRow verbose first fuel (acc ++ [.group none on off body])
          | .capture name =>
            let g ← openGroup name
            let body ← readChoice verbose false fuel []
            closeGroup start
            modify fun s => { s with widths := s.widths.set (g - 1) (some (seqWidth s.widths body)) }
            readRow verbose first fuel (acc ++ [.group (some g) [] [] body])
        else readRow verbose first fuel (acc ++ [.char c.toNat false])

end

/-! ## Checks on the whole tree -/

/-- What a repetition is called in a message. -/
def Greed.label : Greed → String
  | .greedy => "MAX_REPEAT"
  | .lazy => "MIN_REPEAT"
  | .possessive => "POSSESSIVE_REPEAT"

mutual

/-- The first fault of a part: a look-behind must have one width. -/
def Node.fault? (groups : List (Option (Nat × Nat))) (f : Flags) : Node → Option String
  | .branch options => branchFault? groups f options
  | .group _ on off body => seqFault? groups (f.change on off) body
  | .atomic body => seqFault? groups f body
  | .turns greed _ _ body =>
    if f.template then some ("internal: unsupported template operator " ++ greed.label)
    else seqFault? groups f body
  | .look behind _ body =>
    let w := seqWidth groups body
    if behind.isSome && turnLimit < w.1 then some "looks too much behind"
    else if behind.isSome && w.1 != w.2 then some "look-behind requires fixed-width pattern"
    else seqFault? groups f body
  | .given _ yes no =>
    match seqFault? groups f yes with
    | some e => some e
    | none => match no with
      | some body => seqFault? groups f body
      | none => none
  | _ => none

/-- The first fault of parts in a row. -/
def seqFault? (groups : List (Option (Nat × Nat))) (f : Flags) : List Node → Option String
  | [] => none
  | n :: ns => match n.fault? groups f with
    | some e => some e
    | none => seqFault? groups f ns

/-- The first fault of alternatives. -/
def branchFault? (groups : List (Option (Nat × Nat))) (f : Flags) :
    List (List Node) → Option String
  | [] => none
  | o :: os => match seqFault? groups f o with
    | some e => some e
    | none => branchFault? groups f os

end

/-- Reads a whole pattern. -/
def readPattern (size : Nat) : Reader (List Node) := do
  if (← peek) = some .dangling then
    throw (.malformed "bad escape (end of pattern)" (some 0))
  let nodes ← readChoice false true (2 * size + 4) []
  let s ← get
  if s.flags.contains 'a' && s.flags.contains 'u' then throw .clash
  if (← peek).isSome then failAt "unbalanced parenthesis"
  match s.conditions.find? (fun c => s.widths.length + 1 ≤ c.1) with
  | some (g, p) => throw (.malformed ("invalid group reference " ++ toString g) (some p))
  | none => pure ()
  match seqFault? s.widths (({} : Flags).change s.flags []) nodes with
  | some e => throw (.malformed e none)
  | none => return nodes

/-- The parts of a pattern with its switches. -/
def parse (pattern : String) : Except Error (List Node × Flags) := do
  let ts := tokens pattern.toList
  let (nodes, s) ← (readPattern ts.length).run { rest := ts, place := 0 }
  return (nodes, ({} : Flags).change s.flags [])

end Outline.Regex

import Outline.Markdown.Definition
import Outline.Markdown.Emphasis

/-!
# Text within blocks

The text of a block is cut into plain text, code, links, images and line breaks.

* `Inline`: the pieces;
* `plainText`: their text without links and images;
* `codeSpan?`, `bareLink?`, `htmlSpan?`: pieces that need no look at what is around them;
* `labelEnd`, `linkAt?`, `imageAt?`: links and images;
* `skip`: the end of the piece at a place: labels of links are searched with it;
* `inlinesOf`: the pieces of a text.

Links and images may stand in labels of others, so `skip` calls itself; no deeper than twenty levels.
What it finds is kept, as labels would be searched over and over else.
-/

namespace Outline.Markdown

/-- A piece of text. -/
inductive Inline where
  | text (cs : List Char)
  | code (cs : List Char)
  | lineBreak
  | image (address alt : List Char)
  /-- The start of a link; a bare one is an address between angle brackets. -/
  | linkStart (address : List Char) (bare : Bool)
  | linkEnd
  | html

/-- The text of pieces. -/
def plainText (is : List Inline) : List Char :=
  trim isBlank (is.flatMap fun
    | .text cs => cs
    | .code cs => cs
    | .lineBreak => [' ']
    | .image _ alt => alt
    | .linkStart _ _ => []
    | .linkEnd => []
    | .html => [])

/-! ## Pieces on their own -/

/-- The text before the next run of exactly `n` backticks. -/
def beforeRun? (n : Nat) : (fuel : Nat) → List Char → Option (List Char)
  | 0, _ => none
  | fuel + 1, cs =>
    let text := cs.takeWhile (· != '\x60')
    match cs.drop text.length with
    | [] => none
    | rest =>
      let run := rest.takeWhile (· == '\x60')
      if run.length == n then some text
      else (beforeRun? n fuel (rest.drop run.length)).map fun more => text ++ run ++ more

/-- Code without the space at each end, if it is not blank. -/
def unpadded (cs : List Char) : List Char :=
  if cs.head? == some ' ' && cs.getLast? == some ' ' && !cs.all isBlank then (cs.drop 1).dropLast
  else cs

/-- The code between backticks at the front of a text, and the number of characters it takes. -/
def codeSpan? (cs : List Char) : Option (List Char × Nat) :=
  let n := (cs.takeWhile (· == '\x60')).length
  let rest := cs.drop n
  (beforeRun? n (rest.length + 1) rest).map fun text =>
    (unpadded (text.map fun c => if c == '\n' then ' ' else c), 2 * n + text.length)

/-- Whether a text is an address with a scheme. -/
def isBareAddress (cs : List Char) : Bool :=
  let scheme := cs.takeWhile fun c => isAsciiAlnum c || c == '+' || c == '.' || c == '-'
  let rest := cs.drop scheme.length
  (scheme.head?.map isAsciiLetter).getD false && 2 ≤ scheme.length && scheme.length ≤ 32 &&
    rest.head? == some ':' && rest.all fun c => 0x20 < c.toNat && c != '<' && c != '>'

/-- A label of the domain of a mail address. -/
def isMailLabel (cs : List Char) : Bool :=
  1 ≤ cs.length && cs.length ≤ 63 && cs.all (fun c => isAsciiAlnum c || c == '-') &&
    cs.head? != some '-' && cs.getLast? != some '-'

/-- Whether a text is a mail address. -/
def isMailAddress (cs : List Char) : Bool :=
  let user := cs.takeWhile fun c =>
    isAsciiAlnum c || ".!#$%&'*+/=?^_\x60\x7b|\x7d~-".toList.contains c
  !user.isEmpty && (cs.drop user.length).head? == some '@' &&
    (cutOn '.' (cs.drop (user.length + 1))).all isMailLabel

/-- A text without the line feed at its end. -/
def withoutLastBreak (cs : List Char) : List Char :=
  if cs.getLast? == some '\n' then cs.dropLast else cs

/-- The address between angle brackets at the front of a text: the address of the link, its text, and
the number of characters it takes. -/
def bareLink? (cs : List Char) : Option (List Char × List Char × Nat) :=
  let url := (cs.drop 1).takeWhile fun c => c != '<' && c != '>'
  if (cs.drop (url.length + 1)).head? != some '>' then none
  else
    let core := withoutLastBreak url
    let address? :=
      if isBareAddress core then some (linkAddress url)
      else if isMailAddress core then some (linkAddress ("mailto:".toList ++ url))
      else none
    match address? with
    | some address =>
      if isSafeAddress address then some (address, shownAddress url, url.length + 2) else none
    | none => none

/-- The number of characters of HTML at the front of a text. -/
def htmlSpan? (cs : List Char) : Option Nat :=
  match cs with
  | _ :: c :: _ :: _ =>
    if c == '!' || c == '?' || c == '/' || isAsciiLetter c then htmlTagLength? cs else none
  | _ => none

/-- The characters that a backslash and what follows it take. -/
def escapeLength (cs : List Char) : Nat :=
  match cs with
  | _ :: '\n' :: rest => 2 + (rest.takeWhile isIndent).length
  | _ :: _ :: _ => 2
  | _ => 1

/-! ## Labels -/

/-- A place in a text, and what follows it. -/
structure Spot where
  rest : List Char
  place : Nat

/-- The same text at a later place. -/
def Spot.to (s : Spot) (place : Nat) : Spot := ⟨s.rest.drop (place - s.place), place⟩

/-- The place `n` characters on. -/
def Spot.skip (s : Spot) (n : Nat) : Spot := s.to (s.place + n)

/-- Ends of pieces found so far, by the places where they begin. -/
abbrev Found := List (Nat × Nat)

/-- Finds the end of the piece at a place. -/
abbrev Skipper := Found → Spot → Nat × Found

/-- The addresses that labels stand for. -/
abbrev Labels := List (List Char × List Char)

/-- The place of the bracket that closes a label, given the number of brackets that are open. A label
that may hold no link has none if there is one in it. -/
def labelEnd (skip : Skipper) (holdsLinks : Bool) :
    (fuel : Nat) → (openCount : Nat) → Found → Spot → Option Nat × Found
  | 0, _, found, _ => (none, found)
  | fuel + 1, openCount, found, s =>
    match s.rest with
    | [] => (none, found)
    | c :: _ =>
      if c == ']' && openCount ≤ 1 then (some s.place, found)
      else
        let openCount := if c == ']' then openCount - 1 else openCount
        let (next, found) := skip found s
        if c == '[' then
          if next == s.place + 1 then
            labelEnd skip holdsLinks fuel (openCount + 1) found (s.to next)
          else if holdsLinks then labelEnd skip holdsLinks fuel openCount found (s.to next)
          else (none, found)
        else labelEnd skip holdsLinks fuel openCount found (s.to next)

/-- The address in parentheses at the front of a text, and what follows it and its title: a closing
parenthesis, if all is well. Nothing if the text ends before the address. -/
def targetIn? (cs : List Char) : Option (List Char × List Char) :=
  let cs := skipBlanks cs
  if cs.isEmpty then none
  else
    match destination? cs with
    | none => some ([], cs)
    | some (written, behind) =>
      let address := linkAddress written
      let behind := if isSafeAddress address then behind else cs
      let next := skipBlanks behind
      if next.length == behind.length then some (address, next)
      else match titleScan next with
        | .found _ rest => some (address, skipBlanks rest)
        | _ => some (address, next)

/-- A link or an image: its label, its address, and the place where it ends. -/
structure Target where
  label : List Char
  address : List Char
  stop : Nat

/-- What a label stands for. A second label in brackets may stand at `s`; it counts if it is not
empty. `stop` is the place behind the first one. -/
def labelTarget (skip : Skipper) (labels : Labels) (label : List Char) (stop : Nat)
    (found : Found) (s : Spot) : Option Target × Found :=
  if labels.isEmpty then (none, found)
  else
    let (second, found) :=
      if s.rest.head? == some '[' then
        labelEnd skip true (s.rest.length + 1) 1 found (s.skip 1)
      else (none, found)
    let (key, stop) := match second with
      | some place => (s.rest.take (place - s.place) |>.drop 1, place + 1)
      | none => ([], stop)
    let key := labelKey (if key.isEmpty then label else key)
    match labels.find? (·.1 == key) with
    | some (_, address) => (some ⟨label, address, stop⟩, found)
    | none => (none, found)

/-- The link whose opening bracket is at a place. -/
def linkAt? (skip : Skipper) (labels : Labels) (found : Found) (s : Spot) :
    Option Target × Found :=
  let inner := s.skip 1
  let (stop, found) := labelEnd skip false (s.rest.length + 1) 1 found inner
  match stop with
  | none => (none, found)
  | some stop =>
    let label := inner.rest.take (stop - inner.place)
    let behind := s.to (stop + 1)
    match behind.rest with
    | '(' :: cs =>
      match targetIn? cs with
      | none => (none, found)
      | some (address, rest) =>
        let place := behind.place + (behind.rest.length - rest.length)
        if rest.head? == some ')' then (some ⟨label, address, place + 1⟩, found)
        else labelTarget skip labels label (stop + 1) found (s.to (place + 1))
    | _ => labelTarget skip labels label (stop + 1) found behind

/-- The image whose exclamation mark is at a place. -/
def imageAt? (skip : Skipper) (labels : Labels) (found : Found) (s : Spot) :
    Option Target × Found :=
  let inner := s.skip 2
  if (s.rest.drop 1).head? != some '[' then (none, found)
  else
    let (stop, found) := labelEnd skip true (s.rest.length + 1) 1 found inner
    match stop with
    | none => (none, found)
    | some stop =>
      let label := inner.rest.take (stop - inner.place)
      let behind := s.to (stop + 1)
      match behind.rest with
      | '(' :: cs =>
        match targetIn? cs with
        | none => (none, found)
        | some (address, rest) =>
          let place := behind.place + (behind.rest.length - rest.length)
          if rest.head? == some ')' then (some ⟨label, address, place + 1⟩, found)
          else (none, found)
      | _ => labelTarget skip labels label (stop + 1) found behind

/-- A character that begins or ends a piece. -/
def isSpecial (c : Char) : Bool :=
  c == '\n' || c == '\\' || c == '\x60' || c == '*' || c == '_' || c == '[' || c == ']' ||
    c == '!' || c == '<' || c == '&'

/-- The end of the piece at a place, where links and images are found by `skip`. -/
def pieceEnd (skip : Skipper) (labels : Labels) (found : Found) (s : Spot) : Nat × Found :=
  match s.rest with
  | [] => (s.place + 1, found)
  | c :: cs =>
    let stop (n : Nat) : Nat × Found := (s.place + n, found)
    if !isSpecial c then stop (s.rest.takeWhile fun d => !isSpecial d).length
    else if c == '\n' then stop (1 + (cs.takeWhile isIndent).length)
    else if c == '\\' then stop (escapeLength s.rest)
    else if c == '\x60' then
      match codeSpan? s.rest with
      | some (_, n) => stop n
      | none => stop (s.rest.takeWhile (· == '\x60')).length
    else if c == '[' then
      match linkAt? skip labels found s with
      | (some t, found) => (t.stop, found)
      | (none, found) => (s.place + 1, found)
    else if c == '!' then
      match imageAt? skip labels found s with
      | (some t, found) => (t.stop, found)
      | (none, found) => (s.place + 1, found)
    else if c == '<' then
      match bareLink? s.rest with
      | some (_, _, n) => stop n
      | none => stop ((htmlSpan? s.rest).getD 1)
    else if c == '&' then stop (((reference? s.rest).map (·.1)).getD 1)
    else stop 1

/-- The end of the piece at a place. Too deep in labels, all up to the end is one piece. -/
def skip (labels : Labels) : (depth : Nat) → Skipper
  | 0 => fun found s =>
    match found.find? (·.1 == s.place) with
    | some (_, stop) => (stop, found)
    | none =>
      let stop := s.place + s.rest.length + 1
      (stop, (s.place, stop) :: found)
  | depth + 1 => fun found s =>
    match found.find? (·.1 == s.place) with
    | some (_, stop) => (stop, found)
    | none =>
      let (stop, found) := pieceEnd (skip labels depth) labels found s
      (stop, (s.place, stop) :: found)

/-! ## Cutting a text into pieces -/

/-- A piece, or an asterisk or underscore that may belong to a pair. -/
inductive Part where
  | piece (i : Inline)
  | mark (sign : Char) (length : Nat) (opens closes : Bool)

/-- The marks among parts, the first of which has the given place. -/
def marksFrom : (place : Nat) → List Part → List Mark
  | _, [] => []
  | n, .piece _ :: ps => marksFrom (n + 1) ps
  | n, .mark c l o k :: ps => ⟨n, c, l, o, k⟩ :: marksFrom (n + 1) ps

/-- The pieces that parts stand for, given the places of the marks in pairs. -/
def resolveFrom (paired : List Nat) : (place : Nat) → List Part → List Inline
  | _, [] => []
  | n, .piece i :: ps => i :: resolveFrom paired (n + 1) ps
  | n, .mark c _ _ _ :: ps =>
    if paired.contains n then resolveFrom paired (n + 1) ps
    else .text [c] :: resolveFrom paired (n + 1) ps

/-- The pieces that parts stand for. -/
def resolve (ps : List Part) : List Inline := resolveFrom (pairedPlaces (marksFrom 0 ps)) 0 ps

/-- Plain text that has been collected, the last character first, as a part. -/
def flush (pending : List Char) (ps : List Part) : List Part :=
  if pending.isEmpty then ps else .piece (.text pending.reverse) :: ps

/-- The parts of a text from a place on. `before` is the character before it, `pending` the plain text
collected since the last part, the last character first. The labels of links are cut by `inner`. -/
def partsFrom (skip : Skipper) (inner : Found → Spot → List Inline × Found) (labels : Labels) :
    (fuel : Nat) → (before : Char) → (pending : List Char) → Found → Spot → List Part × Found
  | 0, _, pending, found, _ => (flush pending [], found)
  | fuel + 1, before, pending, found, s =>
    let go := partsFrom skip inner labels fuel
    match s.rest with
    | [] => (flush pending [], found)
    | c :: cs =>
      let keep (found : Found) : List Part × Found := go c (c :: pending) found (s.skip 1)
      let emit (new : List Part) (last : Char) (found : Found) (n : Nat) : List Part × Found :=
        let (more, found) := go last [] found (s.skip n)
        (flush pending (new ++ more), found)
      if c == '\n' then
        let (more, found) := go c [] found (s.skip (1 + (cs.takeWhile isIndent).length))
        (flush (pending.dropWhile (· == ' ')) (.piece .lineBreak :: more), found)
      else if c == '\\' then
        match cs with
        | [] => keep found
        | d :: _ =>
          let n := escapeLength s.rest
          if d == '\n' then emit [.piece .lineBreak] ((s.rest.take n).getLastD d) found n
          else emit [.piece (.text (if isAsciiPunctuation d then [d] else [c, d]))] d found n
      else if c == '\x60' then
        match codeSpan? s.rest with
        | some (text, n) => emit [.piece (.code text)] c found n
        | none =>
          let run := s.rest.takeWhile (· == c)
          go c (run ++ pending) found (s.skip run.length)
      else if c == '*' || c == '_' then
        let n := (s.rest.takeWhile (· == c)).length
        let (opens, closes) := runPowers c before ((s.rest.drop n).headD ' ')
        emit (List.replicate n (.mark c n opens closes)) c found n
      else if c == '[' then
        match linkAt? skip labels found s with
        | (some t, found) =>
          let (pieces, found) := inner found ⟨t.label, s.place + 1⟩
          emit (.piece (.linkStart t.address false) :: pieces.map .piece ++ [.piece .linkEnd])
            ((s.rest.take (t.stop - s.place)).getLastD c) found (t.stop - s.place)
        | (none, found) => keep found
      else if c == '!' then
        match imageAt? skip labels found s with
        | (some t, found) =>
          emit [.piece (.image t.address t.label)] ((s.rest.take (t.stop - s.place)).getLastD c)
            found (t.stop - s.place)
        | (none, found) => keep found
      else if c == '<' then
        match bareLink? s.rest with
        | some (address, shown, n) =>
          emit [.piece (.linkStart address true), .piece (.text shown), .piece .linkEnd] '>' found n
        | none =>
          match htmlSpan? s.rest with
          | some n => emit [.piece .html] '>' found n
          | none => keep found
      else if c == '&' then
        match reference? s.rest with
        | some (n, text) => emit [.piece (.text text)] ';' found n
        | none => keep found
      else keep found

/-- The pieces of a text inside so many links that only `depth` more are possible. -/
def inlinesAt (labels : Labels) : (depth : Nat) → (before : Char) → Found → Spot →
    List Inline × Found
  | 0, _, found, s => ([.text s.rest], found)
  | depth + 1, before, found, s =>
    let (ps, found) :=
      partsFrom (skip labels (depth + 1)) (inlinesAt labels depth '[') labels (s.rest.length + 1)
        before [] found s
    (resolve ps, found)

/-- The pieces of the text of a block. -/
def inlinesOf (labels : Labels) (text : List Char) : List Inline :=
  (inlinesAt labels maxLevel ' ' [] ⟨text, 0⟩).1

end Outline.Markdown

import Outline.Regex.Read

/-!
# Matching patterns

A part of a pattern is tried at a place of the text and hands each way to match it, in order of
preference, to what follows; the first way that lets everything after it succeed is taken.

* `Cursor`: a place in the text, with the group borders set so far;
* `Node.run`, `runRow`: a part, and parts in a row, before a continuation;
* `compile`: a pattern ready for matching;
* `Pattern.search`, `Pattern.matchStart`, `Pattern.matchesAll`: the first match in a text, a match
  at its start, and whether the whole text is one.
-/

namespace Outline.Regex

/-- A place in the text, with the borders of groups, the newest first: border `2 g` is the start
and `2 g + 1` the end of group `g`. -/
structure Cursor where
  place : Nat
  borders : List (Nat × Nat)

/-- One step of matching: a cursor goes to a later one, or nowhere. -/
abbrev Step := Cursor → Option Cursor

/-- Where a group was matched, if it was. -/
def Cursor.group? (c : Cursor) (g : Nat) : Option (Nat × Nat) :=
  match c.borders.lookup (2 * g), c.borders.lookup (2 * g + 1) with
  | some a, some b => if b < a then none else some (a, b)
  | _, _ => none

/-- Equality of characters in either case: their lower forms have one upper form. -/
def sameLetter (ascii : Bool) (a b : Char) : Bool :=
  if ascii then
    let low (c : Char) : Char := if c.toNat < 128 then lowerChar c else c
    low a == low b
  else a == b || upperText (lowerChar a) == upperText (lowerChar b)

/-- Whether a character has the code point `n`, in either case if the switch says so. -/
def sameCode (f : Flags) (n : Nat) (c : Char) : Bool :=
  c.toNat == n ||
    (f.ignoreCase && (Char.ofNat n).toNat == n && sameLetter f.ascii (Char.ofNat n) c)

/-- Membership in a set. -/
def SetItem.holds (f : Flags) (c : Char) : SetItem → Bool
  | .char n => sameCode f n c
  | .range lo hi =>
    let within (d : Char) : Bool := lo ≤ d.toNat && d.toNat ≤ hi
    within c || (f.ignoreCase &&
      ((!f.ascii && (within (lowerChar c) || within (upperChar c))) ||
        (List.range (hi + 1 - lo)).any fun i => sameCode f (lo + i) c))
  | .category k negated => k.holds f.ascii c != negated

/-- Whether a place in the text is of the given kind. -/
def Anchor.holds (f : Flags) (t : Array Char) (i : Nat) : Anchor → Bool
  | .textStart => i == 0
  | .textEnd => i == t.size
  | .lineStart => i == 0 || (f.multiLine && t[i - 1]? == some '\n')
  | .lineEnd =>
    i == t.size || ((f.multiLine || i + 1 == t.size) && t[i]? == some '\n')
  | .wordEdge => edge
  | .noWordEdge => t.size != 0 && !edge
where
  edge : Bool :=
    let word (c : Option Char) : Bool :=
      match c with | some c => Category.word.holds f.ascii c | none => false
    let before := if i == 0 then false else word t[i - 1]?
    t.size != 0 && before != word t[i]?

/-- Matches one character that satisfies a test. -/
def one (t : Array Char) (p : Char → Bool) (k : Step) : Step := fun c =>
  match t[c.place]? with
  | some ch => if p ch then k { c with place := c.place + 1 } else none
  | none => none

/-- Whether the text at `i` repeats the text from `a` on, for `n` characters. -/
def repeats (f : Flags) (t : Array Char) (a i : Nat) : Nat → Bool
  | 0 => true
  | n + 1 =>
    match t[a + n]?, t[i + n]? with
    | some x, some y =>
      (x == y || (f.ignoreCase &&
        (if f.ascii then sameLetter true x y else lowerChar x == lowerChar y))) &&
        repeats f t a i n
    | _, _ => false

/-! ## Repetition -/

/-- Whether one more turn is allowed. -/
def belowMost (most : Option Nat) (count : Nat) : Bool :=
  match most with | some n => count < n | none => true

/-- As many turns as possible first. A turn beyond the least number is tried only where the last
one was not tried. -/
def greedyTurns (body : Step → Step) (least : Nat) (most : Option Nat) (k : Step) :
    (fuel count : Nat) → (last : Option Nat) → Step
  | 0, _, _, _ => none
  | fuel + 1, count, last, c =>
    if count < least then body (greedyTurns body least most k fuel (count + 1) last) c
    else
      let more :=
        if belowMost most count && last != some c.place then
          body (greedyTurns body least most k fuel (count + 1) (some c.place)) c
        else none
      match more with
      | some r => some r
      | none => k c

/-- As few turns as possible first. -/
def lazyTurns (body : Step → Step) (least : Nat) (most : Option Nat) (k : Step) :
    (fuel count : Nat) → (last : Option Nat) → Step
  | 0, _, _, _ => none
  | fuel + 1, count, last, c =>
    if count < least then body (lazyTurns body least most k fuel (count + 1) last) c
    else match k c with
      | some r => some r
      | none =>
        if belowMost most count && last != some c.place then
          body (lazyTurns body least most k fuel (count + 1) (some c.place)) c
        else none

/-- As many turns as possible, with no way back. -/
def possessiveTurns (body : Step → Step) (least : Nat) (most : Option Nat) :
    (fuel count : Nat) → (last : Option Nat) → Step
  | 0, _, _, c => some c
  | fuel + 1, count, last, c =>
    if count < least then
      match body some c with
      | some d => possessiveTurns body least most fuel (count + 1) last d
      | none => none
    else if belowMost most count && last != some c.place then
      match body some c with
      | some d => possessiveTurns body least most fuel (count + 1) (some c.place) d
      | none => some c
    else some c

/-! ## Parts -/

mutual

/-- Matches one part before a continuation. -/
def Node.run (t : Array Char) : Flags → Node → Step → Step
  | f, .char n negated, k => one t (fun c => sameCode f n c != negated) k
  | f, .any, k => one t (fun c => f.dotAll || c != '\n') k
  | f, .set items negated, k => one t (fun c => items.any (·.holds f c) != negated) k
  | f, .anchor a, k => fun c => if a.holds f t c.place then k c else none
  | f, .branch options, k => runOptions t f options k
  | f, .group index on off body, k =>
    let inner := runRow t (f.change on off) body
    match index with
    | none => inner k
    | some g => fun c =>
      inner (fun d => k { d with borders := (2 * g + 1, d.place) :: d.borders })
        { c with borders := (2 * g, c.place) :: c.borders }
  | f, .atomic body, k => fun c => (runRow t f body some c).bind k
  | f, .turns greed least most body, k => fun c =>
    let inner := runRow t f body
    let fuel := least + (t.size - c.place) + 3
    match greed with
    | .greedy => greedyTurns inner least most k fuel 0 none c
    | .lazy => lazyTurns inner least most k fuel 0 none c
    | .possessive => (possessiveTurns inner least most fuel 0 none c).bind k
  | f, .look behind negated body, k => fun c =>
    let width := behind.getD 0
    let found :=
      if c.place < width then none
      else runRow t f body some { c with place := c.place - width }
    match found, negated with
    | some d, false => k { d with place := c.place }
    | none, true => k c
    | _, _ => none
  | f, .again g, k => fun c =>
    match c.group? g with
    | some (a, b) =>
      if repeats f t a c.place (b - a) then k { c with place := c.place + (b - a) } else none
    | none => none
  | f, .given g yes no, k => fun c =>
    match c.group? g with
    | some _ => runRow t f yes k c
    | none =>
      match no with
      | some body => runRow t f body k c
      | none => k c

/-- Matches parts in a row before a continuation. -/
def runRow (t : Array Char) : Flags → List Node → Step → Step
  | _, [], k => k
  | f, n :: ns, k => Node.run t f n (runRow t f ns k)

/-- Tries alternatives in order. -/
def runOptions (t : Array Char) : Flags → List (List Node) → Step → Step
  | _, [], _ => fun _ => none
  | f, o :: os, k => fun c =>
    match runRow t f o k c with
    | some r => some r
    | none => runOptions t f os k c

end

/-! ## Whole patterns -/

/-- A pattern ready for matching. -/
structure Pattern where
  nodes : List Node
  flags : Flags

/-- Reads a pattern. -/
def compile (text : String) : Except Error Pattern := do
  let (nodes, flags) ← parse text
  return ⟨nodes, flags⟩

namespace Pattern

/-- The end of a match that begins at a place. -/
def matchAt (p : Pattern) (t : Array Char) (start : Nat) : Option Nat :=
  (runRow t p.flags p.nodes some ⟨start, []⟩).map (·.place)

/-- The first match at or after a place: its start and its end. -/
def searchFrom (p : Pattern) (t : Array Char) : (fuel start : Nat) → Option (Nat × Nat)
  | 0, _ => none
  | fuel + 1, start =>
    match p.matchAt t start with
    | some stop => some (start, stop)
    | none => p.searchFrom t fuel (start + 1)

/-- The first match in a text: its start and its end. -/
def search (p : Pattern) (cs : List Char) : Option (Nat × Nat) :=
  let t := cs.toArray
  p.searchFrom t (t.size + 1) 0

/-- Whether a text has a match in it. -/
def occursIn (p : Pattern) (s : String) : Bool := (p.search s.toList).isSome

/-- The length of a match at the start of a text. -/
def matchStart (p : Pattern) (cs : List Char) : Option Nat := p.matchAt cs.toArray 0

/-- Whether a text as a whole is a match. -/
def matchesAll (p : Pattern) (s : String) : Bool :=
  let t := s.toList.toArray
  (runRow t p.flags p.nodes (fun c => if c.place == t.size then some c else none) ⟨0, []⟩).isSome

end Pattern

end Outline.Regex

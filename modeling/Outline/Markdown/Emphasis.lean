import Outline.Text.Punctuation

/-!
# Emphasis

Asterisks and underscores open and close emphasis in pairs. Whether a run of them can open or close
depends on the characters around it; what is left over stands for itself.

* `Mark`: one asterisk or underscore, and what its run can do;
* `pairedPlaces`: the places of the marks that belong to pairs.
-/

namespace Outline.Markdown

/-- One asterisk or underscore of a run. -/
structure Mark where
  /-- The place among the parts of the text. -/
  place : Nat
  sign : Char
  /-- The length of its run. -/
  length : Nat
  opens : Bool
  closes : Bool

/-- A blank, as far as emphasis is concerned. -/
def isSpacing (c : Char) : Bool :=
  let n := c.toNat
  (9 ≤ n && n ≤ 13) || n == 32 || n == 0xA0 || n == 0x1680 || (0x2000 ≤ n && n ≤ 0x200A) ||
    n == 0x202F || n == 0x205F || n == 0x3000

/-- Whether a run can open emphasis, and whether it can close it, given the characters around it. -/
def runPowers (sign before after : Char) : Bool × Bool :=
  let left := !(isSpacing after ||
    (isPunctuation after && !(isSpacing before || isPunctuation before)))
  let right := !(isSpacing before ||
    (isPunctuation before && !(isSpacing after || isPunctuation after)))
  if sign == '*' then (left, right)
  else (left && (!right || isPunctuation before), right && (!left || isPunctuation after))

/-- Whether a closing mark belongs to an opening one. If either could do both, the lengths of their
runs may not add up to a multiple of three, unless both are such multiples. -/
def Mark.closedBy (o c : Mark) : Bool :=
  o.sign == c.sign && o.opens &&
    !((o.closes || c.opens) && (o.length + c.length) % 3 == 0 && o.length % 3 != 0)

/-- Goes over marks in order. `before` are the marks that can still open, the latest first, and `run`
those of the run that the last mark belongs to. A closing mark is paired with the latest mark before
its run that it closes; the marks between the two are out of play. -/
def pairFrom (before run : List Mark) (last : Option Mark) : List Mark → List Nat
  | [] => []
  | m :: ms =>
    let sameRun := match last with
      | some l => l.sign == m.sign && l.place + 1 == m.place
      | none => false
    let before := if sameRun then before else run ++ before
    let run := if sameRun then run else []
    match if m.closes then before.dropWhile fun o => !o.closedBy m else [] with
    | o :: rest => o.place :: m.place :: pairFrom rest [] none ms
    | [] => pairFrom before (m :: run) (some m) ms

/-- The places of the marks that belong to pairs. -/
def pairedPlaces (marks : List Mark) : List Nat := pairFrom [] [] none marks

end Outline.Markdown

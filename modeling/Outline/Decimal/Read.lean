import Outline.Decimal.Float
import Outline.Text.Blank
import Outline.Text.Digit
import Outline.Text.Letter

/-!
# Numbers as they are written

* `wholeOfText?`: a whole number in a base up to 16: blanks around it, a sign and the mark of the
  base in front of it, and single underscores between digits are allowed;
* `floatOfText?`: a floating-point number, infinities and `nan` included.
-/

namespace Outline

/-- The value of a digit in a base up to 16. -/
def digitIn? (base : Nat) (c : Char) : Option Nat :=
  let n := c.toNat
  let v := match digitValue? c with
    | some d => some d
    | none =>
      if 97 ≤ n && n ≤ 102 then some (n - 87)
      else if 65 ≤ n && n ≤ 70 then some (n - 55)
      else none
  v.filter (· < base)

/-- The number that digits write, with single underscores between them. -/
def digitsWithGaps? (base : Nat) : (acc : Nat) → (afterDigit : Bool) → List Char → Option Nat
  | acc, afterDigit, [] => if afterDigit then some acc else none
  | acc, afterDigit, c :: cs =>
    if c == '_' then if afterDigit then digitsWithGaps? base acc false cs else none
    else match digitIn? base c with
      | some d => digitsWithGaps? base (base * acc + d) true cs
      | none => none

/-- A text without the sign in front of it, and whether it is a minus. -/
def splitSign : List Char → Bool × List Char
  | '-' :: cs => (true, cs)
  | '+' :: cs => (false, cs)
  | cs => (false, cs)

/-- A text without the mark of a base in front of it. -/
def dropBaseMark (base : Nat) (cs : List Char) : List Char :=
  let letter : List Char :=
    if base = 2 then ['b', 'B'] else if base = 8 then ['o', 'O'] else if base = 16 then ['x', 'X']
    else []
  match cs with
  | '0' :: c :: rest =>
    if letter.contains c then (if rest.head? == some '_' then rest.drop 1 else rest) else cs
  | _ => cs

/-- The whole number that a text writes. -/
def wholeOfText? (base : Nat) (cs : List Char) : Option Int :=
  let (negative, ds) := splitSign (trim isBlank cs)
  (digitsWithGaps? base 0 false (dropBaseMark base ds)).map fun n =>
    if negative then -(n : Int) else n

/-- A run of digits with single underscores between them, which may be empty, and what follows. -/
def digitRun (cs : List Char) : List Char × List Char :=
  let run := cs.takeWhile fun c => isDigit c || c == '_'
  (run, cs.drop run.length)

/-- Whether underscores stand between digits only. -/
def gapsAreInner (run : List Char) : Bool := run.isEmpty || (digitsWithGaps? 10 0 false run).isSome

/-- The floating-point number that a text without a sign writes. -/
def unsignedFloat? (cs : List Char) : Option Float :=
  let word := lowerChars cs
  if word == "inf".toList || word == "infinity".toList then some (1.0 / 0.0)
  else if word == "nan".toList then some (0.0 / 0.0)
  else
    let (whole, rest) := digitRun cs
    let (fraction, rest) := match rest with
      | '.' :: rest => digitRun rest
      | rest => ([], rest)
    let digits := (whole ++ fraction).filter (· != '_')
    if digits.isEmpty || !gapsAreInner whole || !gapsAreInner fraction then none
    else
      let places : Int := (fraction.filter (· != '_')).length
      match rest with
      | [] => some (floatOfDecimal (natOfDigits digits) (-places))
      | e :: rest =>
        if e == 'e' || e == 'E' then
          let (negative, ds) := splitSign rest
          (digitsWithGaps? 10 0 false ds).map fun n =>
            floatOfDecimal (natOfDigits digits) ((if negative then -(n : Int) else n) - places)
        else none

/-- The floating-point number that a text writes. -/
def floatOfText? (cs : List Char) : Option Float :=
  let (negative, ds) := splitSign (trim isBlank cs)
  (unsignedFloat? ds).map fun f => if negative then -f else f

end Outline

/-!
# Sets of code points

A property of characters is a set of code points, kept as closed ranges in increasing order and
searched by halving.

* `CodeSet`, `CodeSet.contains`: the ranges and the membership test;
* `CodeSet.rangeOf?`: the range that holds a code point;
* `CodeSet.ofText`: reads ranges written in hexadecimal, such as `30-39 5F`.
-/

namespace Outline

/-- A hexadecimal digit. -/
def isHexDigit (c : Char) : Bool :=
  let n := c.toNat
  (48 ≤ n && n ≤ 57) || (65 ≤ n && n ≤ 70) || (97 ≤ n && n ≤ 102)

/-- The value of a hexadecimal digit; other characters count as 0. -/
def hexDigitValue (c : Char) : Nat :=
  let n := c.toNat
  if 48 ≤ n && n ≤ 57 then n - 48
  else if 65 ≤ n && n ≤ 70 then n - 55
  else if 97 ≤ n && n ≤ 102 then n - 87
  else 0

/-- The number written by hexadecimal digits, the most significant first. -/
def hexValue (ds : List Char) : Nat :=
  ds.foldl (fun n c => 16 * n + hexDigitValue c) 0

/-- The pieces of a text between blanks and line ends, empty ones left out. -/
def tableRows (text : String) : List (List Char) :=
  (text.toList.foldr (fun c ws =>
    if c == ' ' || c == '\n' then [] :: ws
    else match ws with
      | [] => [[c]]
      | w :: rest => (c :: w) :: rest) [[]]).filter (!·.isEmpty)

/-- A set of code points: closed ranges in increasing order. -/
structure CodeSet where
  ranges : Array (Nat × Nat)

namespace CodeSet

/-- One written range: `30-39`, or `5F` for a single code point. -/
def rangeOfText (row : List Char) : Nat × Nat :=
  let lo := row.takeWhile (· != '-')
  let hi := (row.dropWhile (· != '-')).drop 1
  (hexValue lo, if hi.isEmpty then hexValue lo else hexValue hi)

/-- Reads ranges in hexadecimal, set apart by blanks or line ends. -/
def ofText (text : String) : CodeSet :=
  ⟨((tableRows text).map rangeOfText).toArray⟩

/-- Halves the index interval `[lo, lo + width)` until at most one range is left. -/
def search (t : CodeSet) (n : Nat) : (fuel lo width : Nat) → Option (Nat × Nat)
  | 0, _, _ => none
  | fuel + 1, lo, width =>
    if width = 0 then none
    else
      let half := width / 2
      match t.ranges[lo + half]? with
      | none => none
      | some (a, b) =>
        if n < a then t.search n fuel lo half
        else if n ≤ b then some (a, b)
        else t.search n fuel (lo + half + 1) (width - half - 1)

/-- The range that holds code point `n`. -/
def rangeOf? (t : CodeSet) (n : Nat) : Option (Nat × Nat) :=
  t.search n (t.ranges.size + 1) 0 t.ranges.size

/-- Membership of a character. -/
def contains (t : CodeSet) (c : Char) : Bool := (t.rangeOf? c.toNat).isSome

end CodeSet

end Outline

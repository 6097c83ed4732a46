import Outline.Text.Find

/-!
# Punycode

A label of a domain name in ASCII letters, digits and hyphens alone: first its ASCII characters, then
the others in the order of their codes, each by how far it lies behind the one before it. Distances
are numbers in base 36 whose digits have thresholds that adapt to the distances before.

* `Punycode.encode`: the ASCII form of a label;
* `Punycode.decode?`: the label of an ASCII form.
-/

namespace Outline.Punycode

/-- The sign of a digit in base 36. -/
def digitSign (d : Nat) : Char := if d < 26 then Char.ofNat (97 + d) else Char.ofNat (22 + d)

/-- The digit of a sign; capitals count as small letters. -/
def digitOf? (c : Char) : Option Nat :=
  let n := c.toNat
  if 97 ≤ n && n ≤ 122 then some (n - 97)
  else if 65 ≤ n && n ≤ 90 then some (n - 65)
  else if 48 ≤ n && n ≤ 57 then some (n - 22)
  else none

/-- The threshold of the digit at a place: between 1 and 26. -/
def threshold (bias place : Nat) : Nat := max 1 (min 26 (36 * (place + 1) - bias))

/-- Divides by 35 until no more than 455 is left; 36 for each division. -/
def shrink : (fuel : Nat) → (delta turns : Nat) → Nat × Nat
  | 0, delta, turns => (delta, turns)
  | fuel + 1, delta, turns =>
    if 455 < delta then shrink fuel (delta / 35) (turns + 36) else (delta, turns)

/-- The bias behind a distance, when `count` characters are in place. -/
def adapt (delta count : Nat) (first : Bool) : Nat :=
  let delta := if first then delta / 700 else delta / 2
  let delta := delta + delta / count
  let (rest, turns) := shrink delta delta 0
  turns + 36 * rest / (rest + 38)

/-! ## Encoding -/

/-- A distance as digits. -/
def distanceSigns (bias : Nat) : (fuel place n : Nat) → List Char
  | 0, _, _ => []
  | fuel + 1, place, n =>
    let t := threshold bias place
    if n < t then [digitSign n]
    else digitSign (t + (n - t) % (36 - t)) ::
      distanceSigns bias fuel (place + 1) ((n - t) / (36 - t))

/-- What is known while the characters beyond ASCII are written. -/
structure Encoder where
  signs : List Char
  delta : Nat
  bias : Nat
  /-- The number of characters in place. -/
  count : Nat

/-- Goes over one character when those with the code `code` are written. -/
def Encoder.over (ascii code : Nat) (e : Encoder) (c : Char) : Encoder :=
  if c.toNat < code then { e with delta := e.delta + 1 }
  else if c.toNat = code then
    { signs := e.signs ++ distanceSigns e.bias (e.delta + 1) 0 e.delta
      delta := 0
      bias := adapt e.delta (e.count + 1) (e.count == ascii)
      count := e.count + 1 }
  else e

/-- Writes the characters with each of the given codes, which increase. -/
def Encoder.writeAll (label : List Char) (ascii : Nat) : List Nat → (next : Nat) → Encoder → Encoder
  | [], _, e => e
  | code :: codes, next, e =>
    let e := { e with delta := e.delta + (code - next) * (e.count + 1) }
    let e := label.foldl (Encoder.over ascii code) e
    writeAll label ascii codes (code + 1) { e with delta := e.delta + 1 }

/-- The ASCII form of a label. -/
def encode (label : List Char) : List Char :=
  let ascii := label.filter (·.toNat < 128)
  let codes := ((label.filter (128 ≤ ·.toNat)).map Char.toNat).eraseDups.mergeSort
  let e := Encoder.writeAll label ascii.length codes 128 ⟨[], 0, 72, ascii.length⟩
  (if ascii.isEmpty then [] else ascii ++ ['-']) ++ e.signs

/-! ## Decoding -/

/-- A distance at the front of a text, and what follows. -/
def distance? (bias : Nat) : (place weight sum : Nat) → List Char → Option (Nat × List Char)
  | _, _, _, [] => none
  | place, weight, sum, c :: cs =>
    match digitOf? c with
    | none => none
    | some d =>
      let t := threshold bias place
      let sum := sum + d * weight
      if d < t then some (sum, cs) else distance? bias (place + 1) (weight * (36 - t)) sum cs

/-- Puts the characters that distances write among those in place; `next` is one more than the place
of the last one. -/
def decodeFrom : (fuel : Nat) → (placed : List Char) → (code next bias : Nat) → (first : Bool) →
    List Char → Option (List Char)
  | _, placed, _, _, _, _, [] => some placed
  | 0, _, _, _, _, _, _ => none
  | fuel + 1, placed, code, next, bias, first, cs =>
    match distance? bias 0 1 0 cs with
    | none => none
    | some (delta, rest) =>
      let size := placed.length + 1
      let code := code + (next + delta) / size
      let place := (next + delta) % size
      if 0x10FFFF < code then none
      else
        decodeFrom fuel (placed.take place ++ Char.ofNat code :: placed.drop place) code (place + 1)
          (adapt delta size first) false rest

/-- The label of an ASCII form; nothing if it is no such form. -/
def decode? (signs : List Char) : Option (List Char) :=
  if signs.any (128 ≤ ·.toNat) then none
  else match Text.findLast? ['-'] signs with
    | none => decodeFrom signs.length [] 128 0 72 true signs
    | some i => decodeFrom signs.length (signs.take i) 128 0 72 true (signs.drop (i + 1))

end Outline.Punycode

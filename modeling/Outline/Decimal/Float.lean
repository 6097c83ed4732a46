/-!
# Floating-point numbers as text

A binary floating-point number is `m · 2^q`. The reals that round to it form an interval, whose ends
belong to it when `m` is even. The shortest decimal in that interval stands for the number; of two
with equally many digits the nearer one does.

* `Decimal`: `digits · 10^exponent`;
* `interval`, `shortest`: the reals that round to `m · 2^q`, in quarters of the last binary place, and
  the shortest decimal among them;
* `floatParts?`: sign, mantissa and binary exponent of a finite number;
* `floatText`: the written form: the shortest decimal that reads back, positional for exponents
  from `-4` to `15` and always with a point, else with an exponent of two digits or more;
* `floatOfDecimal`: the nearest number to a decimal;
* `wholePart?`: the natural number that a floating-point number equals.
-/

namespace Outline

/-! ## The shortest decimal that reads back -/

/-- The decimal `digits · 10^exponent`. -/
structure Decimal where
  digits : Nat
  exponent : Int

/-- A non-negative fraction. -/
structure Ratio where
  num : Nat
  den : Nat

namespace Ratio

/-- Whether one fraction is below another. -/
def lt (a b : Ratio) : Bool := a.num * b.den < b.num * a.den

/-- Whether one fraction is at most another. -/
def le (a b : Ratio) : Bool := a.num * b.den ≤ b.num * a.den

/-- The distance between two fractions. -/
def dist (a b : Ratio) : Ratio :=
  let x := a.num * b.den
  let y := b.num * a.den
  ⟨if x ≤ y then y - x else x - y, a.den * b.den⟩

/-- `n · base^e`. -/
def scaled (n base : Nat) (e : Int) : Ratio :=
  match e with
  | .ofNat k => ⟨n * base.pow k, 1⟩
  | .negSucc k => ⟨n, base.pow (k + 1)⟩

end Ratio

/-- The value of a decimal. -/
def Decimal.value (d : Decimal) : Ratio := Ratio.scaled d.digits 10 d.exponent

/-- The number of decimal digits of a natural number, none for zero. -/
def digitCount (n : Nat) : Nat := if n = 0 then 0 else (Nat.toDigits 10 n).length

/-- For a fraction below 1: how often ten has to be multiplied in to reach 1. -/
def leadingZeros (den : Nat) : (fuel num : Nat) → Nat
  | 0, _ => 0
  | fuel + 1, num => if den ≤ num then 0 else leadingZeros den fuel (num * 10) + 1

/-- The `k` with `10^(k-1) ≤ v < 10^k`. -/
def magnitude (v : Ratio) : Int :=
  let whole := v.num / v.den
  if 0 < whole then digitCount whole else 1 - (leadingZeros v.den 400 v.num : Nat)

/-- The reals that round to `m · 2^q`: lower end, value, upper end, and whether the ends belong to
it. Below a power of two the numbers lie twice as close, `q = -1074` apart. -/
def interval (m : Nat) (q : Int) : Ratio × Ratio × Ratio × Bool :=
  let below := if m = Nat.pow 2 52 ∧ q ≠ -1074 then 1 else 2
  (Ratio.scaled (4 * m - below) 2 (q - 2), Ratio.scaled (4 * m) 2 (q - 2),
    Ratio.scaled (4 * m + 2) 2 (q - 2), m % 2 == 0)

/-- The decimal with the given last place that is nearest to the value among those in the interval;
a tie goes to the even one. -/
def onGrid (iv : Ratio × Ratio × Ratio × Bool) (place : Int) : Option Decimal :=
  let (lo, v, hi, closed) := iv
  let inside (d : Decimal) : Bool :=
    let r := d.value
    if closed then lo.le r && r.le hi else lo.lt r && r.lt hi
  let unit := Ratio.scaled 1 10 place
  let down := v.num * unit.den / (v.den * unit.num)
  let a : Decimal := ⟨down, place⟩
  let b : Decimal := ⟨down + 1, place⟩
  match inside a && 0 < down, inside b with
  | false, false => none
  | true, false => some a
  | false, true => some b
  | true, true =>
    let da := v.dist a.value
    let db := v.dist b.value
    if da.lt db then some a
    else if db.lt da then some b
    else if down % 2 = 0 then some a else some b

/-- Tries ever finer grids, from one digit on. -/
def shortestFrom (iv : Ratio × Ratio × Ratio × Bool) (top : Int) : (fuel : Nat) → Nat → Decimal
  | 0, n => ⟨0, top - n⟩
  | fuel + 1, n =>
    match onGrid iv (top - n) with
    | some d => d
    | none => shortestFrom iv top fuel (n + 1)

/-- Takes zeros off the end of the digits. -/
def Decimal.trimZeros : (fuel : Nat) → Decimal → Decimal
  | 0, d => d
  | fuel + 1, d =>
    if d.digits ≠ 0 ∧ d.digits % 10 = 0 then trimZeros fuel ⟨d.digits / 10, d.exponent + 1⟩ else d

/-- The shortest decimal that rounds to `m · 2^q`, for `m` not zero. -/
def shortest (m : Nat) (q : Int) : Decimal :=
  let iv := interval m q
  (shortestFrom iv (magnitude iv.2.1) 18 1).trimZeros 20

/-! ## Written forms -/

/-- A finite number as sign, mantissa and binary exponent. -/
structure FloatParts where
  negative : Bool
  mantissa : Nat
  exponent : Int

/-- Sign, mantissa and exponent; nothing for infinities and for what is no number. -/
def floatParts? (f : Float) : Option FloatParts :=
  let bits := f.toBits.toNat
  let negative := bits / Nat.pow 2 63 == 1
  let biased : Nat := bits / Nat.pow 2 52 % Nat.pow 2 11
  let fraction := bits % Nat.pow 2 52
  if biased == 2047 then none
  else if biased == 0 then some ⟨negative, fraction, -1074⟩
  else some ⟨negative, Nat.pow 2 52 + fraction, Int.ofNat biased - 1075⟩

/-- The digits of a decimal with the point where its exponent puts it, or with a written exponent:
positional where the point falls within sixteen digits or at most four places before the first. -/
def decimalText (d : Decimal) : String :=
  let ds := (Nat.repr d.digits).toList
  let point : Int := ds.length + d.exponent
  if -4 < point && point ≤ 16 then
    if point ≤ 0 then
      String.ofList ('0' :: '.' :: List.replicate (-point).toNat '0' ++ ds)
    else
      let n := point.toNat
      let whole := ds.take n ++ List.replicate (n - ds.length) '0'
      let rest := ds.drop n
      String.ofList (whole ++ '.' :: (if rest.isEmpty then ['0'] else rest))
  else
    let e := point - 1
    let digits := (Nat.repr e.natAbs).toList
    let padded := if digits.length < 2 then '0' :: digits else digits
    let tail := 'e' :: (if e < 0 then '-' else '+') :: padded
    match ds with
    | [] => ""
    | [c] => String.ofList (c :: tail)
    | c :: rest => String.ofList (c :: '.' :: rest ++ tail)

/-- The written form of a floating-point number. -/
def floatText (f : Float) : String :=
  match floatParts? f with
  | none => if f.isNaN then "nan" else if f < 0 then "-inf" else "inf"
  | some p =>
    let sign := if p.negative then "-" else ""
    if p.mantissa = 0 then sign ++ "0.0"
    else sign ++ decimalText (shortest p.mantissa p.exponent)

/-- The floating-point number nearest to `digits · 10^exponent`; infinite above the range. -/
def floatOfDecimal (digits : Nat) (exponent : Int) : Float :=
  let size : Int := digitCount digits + exponent
  if digits = 0 then 0.0
  else if 310 < size then 1.0 / 0.0
  else if size < -330 then 0.0
  else match exponent with
    | .ofNat k => Float.ofScientific digits false k
    | .negSucc k => Float.ofScientific digits true (k + 1)

/-- The floating-point number nearest to a whole number; nothing where it would be infinite. -/
def floatOfInt? (n : Int) : Option Float :=
  let f := floatOfDecimal n.natAbs 0
  if f.isInf then none else some (if n < 0 then -f else f)

/-- The natural number that a floating-point number equals, if it is one. -/
def wholePart? (f : Float) : Option Nat :=
  match floatParts? f with
  | none => none
  | some p =>
    if p.mantissa = 0 then some 0
    else if p.negative then none
    else match p.exponent with
      | .ofNat k => some (p.mantissa * Nat.pow 2 k)
      | .negSucc k =>
        let unit := Nat.pow 2 (k + 1)
        if p.mantissa % unit = 0 then some (p.mantissa / unit) else none

/-- The whole number that a floating-point number equals, if it is one. -/
def wholeInt? (f : Float) : Option Int :=
  match floatParts? f with
  | none => none
  | some p => (wholePart? f.abs).map fun n => if p.negative then -(n : Int) else n

end Outline

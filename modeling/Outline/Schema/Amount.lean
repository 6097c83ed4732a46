import Outline.Fault

/-!
# Amounts

The whole numbers that bound counts. An amount may be written with a point, as in `2.0`; it is worth
the same as `2`, but messages show it the way it was written.

* `Amount`: a number and how it was written;
* `Amount.ofValue?`: the amount that a value gives;
* `Amount.text`: the way it is shown.
-/

namespace Outline

/-- A whole number, and the floating-point number that it was written as, if it was. -/
structure Amount where
  value : Nat
  written : Option Float := none

namespace Amount

instance (n : Nat) : OfNat Amount n := ⟨⟨n, none⟩⟩

instance : Inhabited Amount := ⟨0⟩

/-- The amount as a value. -/
def toValue (a : Amount) : Value :=
  match a.written with
  | none => .int a.value
  | some f => .float f

/-- The amount that a value gives. -/
def ofValue? : Value → Option Amount
  | .int n => if 0 ≤ n then some ⟨n.toNat, none⟩ else none
  | .float f =>
    match wholeInt? f with
    | some n => if 0 ≤ n then some ⟨n.toNat, some f⟩ else none
    | none => none
  | _ => none

/-- The way an amount is shown. -/
def text (a : Amount) : Except Fault String := a.toValue.text?

/-- An amount for a loop, which takes no number with a point. -/
def turns (a : Amount) : Except Fault Nat :=
  match a.written with
  | none => .ok a.value
  | some _ => .error .wrongKind

end Amount

end Outline

import Mathlib
import Outline.Schema.Amount
import Outline.Schema.Form

/-!
# Whole numbers that are written with a point

The order of floating-point numbers and the whole numbers that they are worth agree on what is
negative (`nonneg_of_wholeInt?`). Hence **a whole number that is checked against a least one gives
an amount** (`ofValue?_of_isWhole`), whether or not it is written with a point.

* `unpack_of_floatParts?`: the parts of a number beside what it unpacks to.
-/

namespace Outline

open Float.Model Float.Model.UnpackedFloat

section

variable {b : BitVec Format.binary64.numBits}

theorem toNat_unpackSign : (unpackSign b).toNat = b.toNat / 2 ^ 63 % 2 := by
  simp only [unpackSign, BitVec.extractLsb, BitVec.toNat_cast, BitVec.extractLsb'_toNat,
    Nat.shiftRight_eq_div_pow]

theorem toNat_unpackExponent : (unpackExponent b).toNat = b.toNat / 2 ^ 52 % 2 ^ 11 := by
  simp only [unpackExponent, BitVec.extractLsb, BitVec.toNat_cast, BitVec.extractLsb'_toNat,
    Nat.shiftRight_eq_div_pow]

theorem ofBitVec_unpackSign :
    Sign.ofBitVec (unpackSign b) = if b.toNat / 2 ^ 63 == 1 then .negative else .positive := by
  have hlt : b.toNat < 2 ^ 64 := b.isLt
  have hbit : unpackSign b = 0#1 ↔ ¬ b.toNat / 2 ^ 63 = 1 := by
    rw [← BitVec.toNat_inj, toNat_unpackSign, BitVec.toNat_ofNat]
    omega
  simp only [Sign.ofBitVec, hbit, beq_iff_eq, ite_not]

end

variable {f : Float} {p : FloatParts}

/-- A number with parts is a zero, or it has the sign of its parts. -/
theorem unpack_of_floatParts? (hp : floatParts? f = some p) :
    (∃ s, f.toModel.unpack = .zero s) ∨ ∃ mantissa exponent hpos, f.toModel.unpack =
      .finite (if p.negative then .negative else .positive) mantissa exponent hpos := by
  obtain ⟨b, hb⟩ : ∃ b : BitVec Format.binary64.numBits, f.toModel.toBits.toBitVec = b := ⟨_, rfl⟩
  have hexponent : (unpackExponent b).toNat = b.toNat / 2 ^ 52 % 2 ^ 11 := toNat_unpackExponent
  change (if f.toModel.toBits.toBitVec.toNat / 2 ^ 52 % 2 ^ 11 == 2047 then none
    else if f.toModel.toBits.toBitVec.toNat / 2 ^ 52 % 2 ^ 11 == 0 then
      some ⟨f.toModel.toBits.toBitVec.toNat / 2 ^ 63 == 1, _, _⟩
    else some ⟨f.toModel.toBits.toBitVec.toNat / 2 ^ 63 == 1, _, _⟩) = some p at hp
  rw [hb, ← hexponent] at hp
  have hnegative : p.negative = (b.toNat / 2 ^ 63 == 1) := by
    split at hp
    · cases hp
    · split at hp <;> cases hp <;> rfl
  rw [hnegative, ← ofBitVec_unpackSign]
  generalize hu : f.toModel.unpack = u
  unfold Float.Model.unpack UnpackedFloat.unpack at hu
  rw [hb] at hu
  dsimp only at hu
  split at hu
  · rename_i hall
    rw [hall] at hp
    cases hp
  · split at hu
    · split at hu
      · exact .inl ⟨_, hu.symm⟩
      · exact .inr ⟨_, _, _, hu.symm⟩
    · exact .inr ⟨_, _, _, hu.symm⟩

/-- Both zeros are worth 0. -/
theorem wholeInt?_zero {s : UnpackedFloat.Sign} {n : Int} (hunpack : f.toModel.unpack = .zero s)
    (h : wholeInt? f = some n) : n = 0 := by
  have habs : f.abs = .ofModel (.pack (.zero .positive)) := by
    rw [Float.abs, Float.Model.abs, hunpack]
    rfl
  have hzero : wholePart? (.ofModel (.pack (.zero .positive))) = some 0 := by decide +kernel
  unfold wholeInt? at h
  rw [habs, hzero] at h
  split at h
  · cases h
  · cases h
    split <;> rfl

/-- A negative number is below 0 and below 1. -/
theorem isBelow_of_unpack {least mantissa : Nat} {exponent : Int} {hpos : 0 < mantissa}
    (hleast : least ≤ 1) (hunpack : f.toModel.unpack = .finite .negative mantissa exponent hpos) :
    isBelow (.inr f) least = true := by
  have hlt : f.toModel.unpack.lt (Float.ofNat least).toModel.unpack = true := by
    rw [hunpack]
    obtain rfl | rfl : least = 0 ∨ least = 1 := by omega
    · rfl
    · rfl
  exact decide_eq_true (decide_eq_true hlt)

/-- **A whole number that is not below 0 or 1 is not negative**, however it is written. -/
theorem nonneg_of_wholeInt? {least : Nat} {n : Int} (hleast : least ≤ 1)
    (h : wholeInt? f = some n) (hlow : isBelow (.inr f) least = false) : 0 ≤ n := by
  obtain ⟨p, hp⟩ : ∃ p, floatParts? f = some p := by
    cases hp : floatParts? f with
    | none => simp [wholeInt?, hp] at h
    | some p => exact ⟨p, rfl⟩
  rcases unpack_of_floatParts? hp with ⟨s, hzero⟩ | ⟨mantissa, exponent, hpos, hfinite⟩
  · exact Int.le_of_eq (wholeInt?_zero hzero h).symm
  · cases hnegative : p.negative with
    | true =>
      rw [hnegative] at hfinite
      rw [isBelow_of_unpack hleast hfinite] at hlow
      cases hlow
    | false =>
      obtain ⟨m, -, hm⟩ : ∃ m : Nat, wholePart? f.abs = some m ∧ (m : Int) = n := by
        simpa [wholeInt?, hp, hnegative, Option.bind_eq_some_iff] using h
      omega

/-- **A whole number that is not below 0 or 1 gives an amount.** -/
theorem ofValue?_of_isWhole {v : Value} {x : Int ⊕ Float} {least : Nat} (hleast : least ≤ 1)
    (hx : formNumber? v = some x) (hwhole : isWhole x = true) (hlow : isBelow x least = false) :
    ∃ a, Amount.ofValue? v = some a := by
  cases v with
  | int n =>
    cases hx
    have hn : 0 ≤ n := by
      have := of_decide_eq_false hlow
      omega
    exact ⟨_, if_pos hn⟩
  | float f =>
    cases hx
    obtain ⟨n, hn⟩ := Option.isSome_iff_exists.1 hwhole
    simp only [Amount.ofValue?, hn, if_pos (nonneg_of_wholeInt? hleast hn hlow)]
    exact ⟨_, rfl⟩
  | _ => cases hx

end Outline

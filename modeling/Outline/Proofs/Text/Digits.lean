import Mathlib
import Outline.Text.Digit
import Outline.Text.Word

/-!
# Letters and digits

* `natOfDigits_lt`: a number has no more digits than the text that it is read from;
* `natOfDigits_toDigits`: the decimal digits of a number are read back as it;
* `forall_letter`, `forall_digit`: what holds of the ASCII letters or digits, one by one, holds of
  every letter or digit.
-/

namespace Outline

/-! ## Digits that are read as a number -/

theorem digitValue_le (c : Char) : (digitValue? c).getD 0 ≤ 9 := by
  unfold digitValue?
  dsimp only
  split
  · split
    · rename_i hrange
      simp only [Bool.and_eq_true, decide_eq_true_eq] at hrange
      simp only [Option.getD_some]
      omega
    · exact Nat.zero_le 9
  · cases digitRuns.rangeOf? c.toNat with
    | none => exact Nat.zero_le 9
    | some r =>
      have := Nat.mod_lt (c.toNat - r.1) (show 0 < 10 by decide)
      simp only [Option.map_some, Option.getD_some]
      omega

theorem natOfDigits_append (ds es : List Char) :
    natOfDigits (ds ++ es) =
      es.foldl (fun n c => 10 * n + (digitValue? c).getD 0) (natOfDigits ds) :=
  List.foldl_append

theorem natOfDigits_lt (ds : List Char) : natOfDigits ds < 10 ^ ds.length := by
  induction ds using List.reverseRecOn with
  | nil => exact Nat.one_pos
  | append_singleton ds d ih =>
    have := digitValue_le d
    rw [natOfDigits_append, List.length_append, List.length_singleton, Nat.pow_succ]
    simp only [List.foldl_cons, List.foldl_nil]
    omega

theorem digitValue?_of_isDigit {c : Char} (h : c.isDigit = true) :
    digitValue? c = some (c.toNat - '0'.toNat) := by
  simp only [Char.isDigit, Bool.and_eq_true, decide_eq_true_eq, ge_iff_le, UInt32.le_iff_toNat_le]
    at h
  have hlow : 48 ≤ c.toNat := h.1
  have hhigh : c.toNat ≤ 57 := h.2
  unfold digitValue?
  dsimp only
  rw [if_pos (by omega), if_pos (by simp [hlow, hhigh])]
  rfl

theorem isDigit_of_asciiDigit {c : Char} (h : c.isDigit = true) : isDigit c = true := by
  rw [isDigit, digitValue?_of_isDigit h]
  rfl

theorem foldl_digits {ds : List Char} (h : ∀ d ∈ ds, d.isDigit = true) (n : Nat) :
    ds.foldl (fun n c => 10 * n + (digitValue? c).getD 0) n = Nat.ofDigitChars 10 ds n := by
  refine List.foldl_ext _ _ n fun k d hd => ?_
  rw [digitValue?_of_isDigit (h d hd)]
  rfl

/-- The decimal digits of a number are read as this number. -/
theorem natOfDigits_toDigits (n : Nat) : natOfDigits (Nat.toDigits 10 n) = n := by
  have hdigits : ∀ d ∈ Nat.toDigits 10 n, d.isDigit = true := fun d hd =>
    Nat.isDigit_of_mem_toDigits (by decide) (by decide) hd
  rw [natOfDigits, foldl_digits hdigits, Nat.ofDigitChars_toDigits (by decide) (by decide)]

/-- Zeros in front do not count. -/
theorem natOfDigits_zeros (k : Nat) (ds : List Char) :
    natOfDigits (List.replicate k '0' ++ ds) = natOfDigits ds := by
  induction k with
  | zero => rfl
  | succ k ih => exact ih

/-! ## Characters one by one -/

variable {p q : Char → Bool} {c : Char}

/-- What holds of the ASCII characters of a class holds of its members, if they are all ASCII. -/
theorem forall_ascii (hq : ∀ c, q c = true → c.toNat < 128)
    (h : ∀ n < 128, q (Char.ofNat n) = true → p (Char.ofNat n) = true) (hc : q c = true) :
    p c = true := by
  have hmember := h c.toNat (hq c hc)
  rw [Char.ofNat_toNat] at hmember
  exact hmember hc

theorem toNat_lt_of_isAsciiLetter (c : Char) (h : isAsciiLetter c = true) : c.toNat < 128 := by
  simp only [isAsciiLetter, Bool.or_eq_true, Bool.and_eq_true, decide_eq_true_eq] at h
  omega

theorem toNat_lt_of_isAsciiDigit (c : Char) (h : isAsciiDigit c = true) : c.toNat < 128 := by
  simp only [isAsciiDigit, Bool.and_eq_true, decide_eq_true_eq] at h
  omega

theorem forall_letter (p : Char → Bool)
    (h : ∀ n < 128, isAsciiLetter (Char.ofNat n) = true → p (Char.ofNat n) = true)
    (hc : isAsciiLetter c = true) : p c = true := forall_ascii toNat_lt_of_isAsciiLetter h hc

theorem forall_digit (p : Char → Bool)
    (h : ∀ n < 128, isAsciiDigit (Char.ofNat n) = true → p (Char.ofNat n) = true)
    (hc : isAsciiDigit c = true) : p c = true := forall_ascii toNat_lt_of_isAsciiDigit h hc

end Outline

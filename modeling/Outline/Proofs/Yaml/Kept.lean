import Outline.Proofs.Yaml.Reread
import Outline.Value.Text

/-!
# Values that are read back from their text

The text of a value, written without quotes, need not stand for it: that of a text may be a number,
a date or null. **A value is read back from its text** (`Value.Kept.plainValue`) if it is a truth
value, a whole number, a date, or a text of the kind of texts.

A date of the calendar, written as a year, a month and a day, is a date again (`plainTag_dateDigits`,
`buildStamp_dateDigits`): the text is no number, though it begins like one, and its parts have the
digits that a date must have.
-/

namespace Outline

theorem Date.bounds_of_make {y m d : Nat} {date : Date} (h : Date.make y m d = .ok date) :
    date = ⟨y, m, d⟩ ∧ y < 10 ^ 4 ∧ m < 10 ^ 2 ∧ d < 10 ^ 2 := by
  have hdays : daysOfMonth y m ≤ 31 := by
    unfold daysOfMonth
    split_ifs <;> decide
  unfold Date.make at h
  split_ifs at h with hyear hmonth hday
  cases h
  exact ⟨rfl, by omega, by omega, by omega⟩

namespace Yaml

variable {ds : List Char}

/-! ## Digits with zeros before them -/

/-- The digits of a number with zeros before them. -/
def paddedDigits (width n : Nat) : List Char :=
  List.replicate (width - (Nat.toDigits 10 n).length) '0' ++ Nat.toDigits 10 n

theorem toList_padded (width n : Nat) : (padded width n).toList = paddedDigits width n := by
  rw [padded, String.toList_ofList, Nat.toList_repr]
  rfl

theorem paddedDigits_isAsciiDigit (width n : Nat) :
    ∀ c ∈ paddedDigits width n, isAsciiDigit c = true := by
  intro c hc
  rcases List.mem_append.1 hc with hzero | hdigit
  · rw [List.eq_of_mem_replicate hzero]
    rfl
  · exact digits_isAsciiDigit n c hdigit

theorem length_paddedDigits {width n : Nat} (hwidth : 0 < width) (h : n < 10 ^ width) :
    (paddedDigits width n).length = width := by
  have hle : (Nat.toDigits 10 n).length ≤ width :=
    (Nat.length_toDigits_le_iff (by decide) hwidth).2 h
  rw [paddedDigits, List.length_append, List.length_replicate]
  omega

theorem natOfDigits_paddedDigits (width n : Nat) : natOfDigits (paddedDigits width n) = n := by
  rw [paddedDigits, natOfDigits_zeros, natOfDigits_toDigits]

/-! ## Dates -/

theorem digits?_append {n : Nat} (hds : ∀ c ∈ ds, isAsciiDigit c = true) (hlength : ds.length = n)
    (rest : List Char) : digits? n (ds ++ rest) = some (ds, rest) := by
  subst hlength
  have hall : ds.all isAsciiDigit = true := List.all_eq_true.2 hds
  simp [digits?, hall]

/-- A year, a month and a day with all their digits. -/
structure DateDigits (ys ms ds : List Char) : Prop where
  year : ∀ c ∈ ys, isAsciiDigit c = true
  month : ∀ c ∈ ms, isAsciiDigit c = true
  day : ∀ c ∈ ds, isAsciiDigit c = true
  yearLength : ys.length = 4
  monthLength : ms.length = 2
  dayLength : ds.length = 2

theorem DateDigits.nonempty {ys ms ds : List Char} (h : DateDigits ys ms ds) : ys ≠ [] :=
  List.length_pos_iff.1 (h.yearLength ▸ by decide)

theorem stamp?_dateDigits {ys ms ds : List Char} (h : DateDigits ys ms ds) :
    stamp? (ys ++ '-' :: (ms ++ '-' :: ds)) =
      some ⟨natOfDigits ys, natOfDigits ms, natOfDigits ds, true, none⟩ := by
  have hyear := digits?_append h.year h.yearLength ('-' :: (ms ++ '-' :: ds))
  have hmonth := digits?_append h.month h.monthLength ('-' :: ds)
  have hday := digits?_append h.day h.dayLength []
  rw [List.append_nil] at hday
  simp [stamp?, fewDigits?, after?, hyear, hmonth, hday, h.monthLength, h.dayLength]

theorem isIntText_hyphen {rest : List Char} (hds : ∀ c ∈ ds, isAsciiDigit c = true)
    (hsome : ds ≠ []) : isIntText (ds ++ '-' :: rest) = false := by
  have hunsigned : unsigned (ds ++ '-' :: rest) = ds ++ '-' :: rest :=
    unsigned_digits hds hsome false _
  rw [isIntText, hunsigned]
  obtain ⟨c, cs, rfl⟩ := List.exists_cons_of_ne_nil hsome
  obtain ⟨hc, hcs⟩ := List.forall_mem_cons.1 hds
  have hnext : ∀ d more, cs ++ '-' :: rest = d :: more → isAsciiDigit d = true ∨ d = '-' := by
    intro d more heq
    cases cs with
    | nil => exact .inr (List.cons.inj heq).1.symm
    | cons e cs => exact .inl ((List.cons.inj heq).1 ▸ hcs e List.mem_cons_self)
  -- whatever base the front of the text asks for, the hyphen is none of its digits
  split
  · rename_i heq
    exact absurd (hnext _ _ (List.cons.inj heq).2) (by decide)
  · rename_i heq
    exact absurd (hnext _ _ (List.cons.inj heq).2) (by decide)
  · rename_i heq
    have htail : cs ++ '-' :: rest = _ := (List.cons.inj heq).2
    rw [← htail, List.all_append, List.all_cons]
    simp [isOctalDigit]
  · rename_i heq
    have htail : cs ++ '-' :: rest = _ := (List.cons.inj heq).2
    rw [← htail, dropWhile_spacedDigit hcs (endsDigits_hyphen rest)]
    simp [afterSixtieths, afterSixtieth]
  · rfl

/-- **A written date is read as a date.** -/
theorem plainTag_dateDigits {ys ms ds : List Char} (h : DateDigits ys ms ds) :
    plainTag (ys ++ '-' :: (ms ++ '-' :: ds)) = .timestamp := by
  have hstamp : isStampText (ys ++ '-' :: (ms ++ '-' :: ds)) = true := by
    rw [isStampText, stamp?_dateDigits h]
    rfl
  have hfloat : isFloatText (ys ++ '-' :: (ms ++ '-' :: ds)) = false :=
    isFloatText_digits h.year h.nonempty (endsDigits_hyphen _) false
  obtain ⟨c, hhead, hc⟩ := head?_digits h.year h.nonempty false ('-' :: (ms ++ '-' :: ds))
  obtain ⟨htruth, hnull⟩ :
      truthWords.contains (String.ofList (ys ++ '-' :: (ms ++ '-' :: ds))) = false ∧
        nullWords.contains (String.ofList (ys ++ '-' :: (ms ++ '-' :: ds))) = false :=
    not_word_of_head? hhead hc
  have hmerge : ys ++ '-' :: (ms ++ '-' :: ds) ≠ ['<', '<'] := by
    intro heq
    have hhead : some '<' = some c := by
      rw [← hhead, signOf]
      exact congrArg List.head? heq.symm
    cases hhead
    rcases hc with hc | hc <;> cases hc
  have hbreak : (ys ++ '-' :: (ms ++ '-' :: ds)).getLast? ≠ some '\n' := by
    intro hlast
    have hmem := List.mem_of_getLast? hlast
    simp at hmem
    rcases hmem with hmem | hmem | hmem
    · exact absurd (h.year _ hmem) (by decide)
    · exact absurd (h.month _ hmem) (by decide)
    · exact absurd (h.day _ hmem) (by decide)
  rw [plainTag_eq hbreak, htruth, hfloat, isIntText_hyphen h.year h.nonempty, hnull, hstamp]
  simp [hmerge]

theorem toList_dateText (d : Date) : d.text.toList = paddedDigits 4 d.year ++
    '-' :: (paddedDigits 2 d.month ++ '-' :: paddedDigits 2 d.day) := by
  simp [Date.text, String.toList_append, toList_padded]

theorem dateDigits_of_make {y m d : Nat} {date : Date} (h : Date.make y m d = .ok date) :
    DateDigits (paddedDigits 4 y) (paddedDigits 2 m) (paddedDigits 2 d) := by
  obtain ⟨-, hyear, hmonth, hday⟩ := Date.bounds_of_make h
  exact ⟨paddedDigits_isAsciiDigit 4 y, paddedDigits_isAsciiDigit 2 m,
    paddedDigits_isAsciiDigit 2 d, length_paddedDigits (by decide) hyear,
    length_paddedDigits (by decide) hmonth, length_paddedDigits (by decide) hday⟩

theorem buildStamp_dateDigits {ys ms ds : List Char} (h : DateDigits ys ms ds) {date : Date}
    (hmake : Date.make (natOfDigits ys) (natOfDigits ms) (natOfDigits ds) = .ok date) :
    buildStamp (ys ++ '-' :: (ms ++ '-' :: ds)) = .ok (.date date) := by
  rw [buildStamp, stamp?_dateDigits h]
  simp only [hmake]
  rfl

theorem isPlainLine_dateDigits {ys ms ds : List Char} (h : DateDigits ys ms ds) :
    isPlainLine (ys ++ '-' :: (ms ++ '-' :: ds)) = true := by
  have hdigit {cs : List Char} (hcs : ∀ c ∈ cs, isAsciiDigit c = true) :
      ∀ c ∈ cs, (isSteady c && isYamlChar c) = true := fun c hc =>
    forall_digit (fun c => isSteady c && isYamlChar c) (by decide) (hcs c hc)
  have hhyphen : (isSteady '-' && isYamlChar '-') = true := by decide
  have hall : ∀ c ∈ ys ++ '-' :: (ms ++ '-' :: ds), (isSteady c && isYamlChar c) = true := by
    rw [List.forall_mem_append, List.forall_mem_cons, List.forall_mem_append, List.forall_mem_cons]
    exact ⟨hdigit h.year, hhyphen, hdigit h.month, hhyphen, hdigit h.day⟩
  obtain ⟨c, cs, hcs⟩ := List.exists_cons_of_ne_nil h.nonempty
  have hc := h.year c (hcs ▸ List.mem_cons_self)
  rw [hcs] at hall ⊢
  exact isPlainLine_of_steady (beginsPlain_of_digit hc _) hall

end Yaml

/-! ## Values -/

open Yaml

theorem toList_toString_int (n : Int) :
    (toString n).toList = signOf (decide (n < 0)) ++ Nat.toDigits 10 n.natAbs := by
  cases n with
  | ofNat k =>
    have h : ¬Int.ofNat k < 0 := Int.not_lt.2 (Int.natCast_nonneg k)
    rw [decide_eq_false h]
    exact Nat.toList_repr
  | negSucc k =>
    rw [decide_eq_true (Int.negSucc_lt_zero k)]
    show ("-" ++ Nat.repr (k + 1)).toList = _
    rw [String.toList_append, Nat.toList_repr]
    rfl

/-- **Values that are read back from their text** where it is written as a plain scalar: truth
values, whole numbers, dates, and texts that are not written like another kind of value. -/
inductive Value.Kept : Value → Prop
  | bool (b : Bool) : Kept (.bool b)
  | int {n : Int} (hwritable : writableInt n = true) : Kept (.int n)
  | date {y m d : Nat} {date : Date} (h : Date.make y m d = .ok date) : Kept (.date date)
  | str {s : String} (hline : isPlainLine s.toList = true) (htag : plainTag s.toList = .str) :
      Kept (.str s)

namespace Value.Kept

variable {v : Value}

theorem text? (h : v.Kept) : v.text? = .ok v.text := by
  cases h with
  | int hwritable => simp [Value.text?, Value.writable, hwritable]
  | _ => rfl

theorem plainValue_int {n : Int} (hwritable : writableInt n = true) :
    plainValue (toString n).toList = .ok (.int n) := by
  rw [writableInt, decide_eq_true_eq] at hwritable
  -- for any exponent, so that the power is not computed
  have hpow : ∀ k, n.natAbs < Nat.pow 10 k → n.natAbs < 10 ^ k := fun _ h => h
  have hlength : (Nat.toDigits 10 n.natAbs).length ≤ maxDigits :=
    (Nat.length_toDigits_le_iff (by decide) (by decide)).2 (hpow _ hwritable)
  have hvalue : (if decide (n < 0) = true then -(n.natAbs : Int) else n.natAbs) = n := by
    by_cases hn : n < 0
    · rw [if_pos (decide_eq_true hn)]
      omega
    · rw [if_neg (by simpa using hn)]
      omega
  have hbuild := buildInt_digits hlength (decide (n < 0))
  rw [hvalue] at hbuild
  rw [plainValue, toList_toString_int, plainTag_digits]
  simp only [buildScalar, String.toList_ofList, hbuild]
  rfl

/-- **Its text stands for it.** -/
theorem plainValue (h : v.Kept) : plainValue v.text.toList = .ok v := by
  cases h with
  | bool b => cases b <;> rfl
  | int hwritable => exact plainValue_int hwritable
  | date h =>
    obtain ⟨rfl, -⟩ := Date.bounds_of_make h
    have hdigits := dateDigits_of_make h
    have hbuild := buildStamp_dateDigits hdigits
      (by rw [natOfDigits_paddedDigits, natOfDigits_paddedDigits, natOfDigits_paddedDigits, h])
    rw [Value.text, toList_dateText, Yaml.plainValue, plainTag_dateDigits hdigits]
    simp only [buildScalar, String.toList_ofList, hbuild]
  | str hline htag =>
    rw [Value.text, Yaml.plainValue, htag, String.ofList_toList]
    rfl

theorem isPlainLine (h : v.Kept) : isPlainLine v.text.toList = true := by
  cases h with
  | bool b => cases b <;> decide
  | @int n hwritable =>
    show Yaml.isPlainLine (toString n).toList = true
    rw [toList_toString_int]
    exact isPlainLine_digits (digits_isAsciiDigit _) Nat.toDigits_ne_nil _
  | date h =>
    rw [Value.text, toList_dateText, (Date.bounds_of_make h).1]
    exact isPlainLine_dateDigits (dateDigits_of_make h)
  | str hline => exact hline

end Value.Kept

end Outline

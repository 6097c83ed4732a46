import Outline.Proofs.Text.Blank
import Outline.Proofs.Text.Digits
import Outline.Proofs.Yaml.Entry

/-!
# What names and whole numbers are read as

A plain scalar has no kind of its own: it is that of the text. **A name of ASCII letters is a truth
value, null or a text** (`exists_buildScalar_of_lettered`), and **the decimal digits of a number,
with a hyphen or not, are that number** (`plainTag_digits`, `buildInt_digits`), if they are not too
many.
-/

namespace Outline.Yaml

variable {name rest text ds : List Char}

/-! ## Kinds -/

/-- The kind of a plain scalar that ends with no line feed. -/
theorem plainTag_eq (h : text.getLast? ≠ some '\n') : plainTag text =
    if truthWords.contains (String.ofList text) then .bool
    else if isFloatText text then .float
    else if isIntText text then .int
    else if text == ['<', '<'] then .merge
    else if nullWords.contains (String.ofList text) then .null
    else if isStampText text then .timestamp
    else if text == ['='] then .value
    else if text == ['!'] || text == ['&'] || text == ['*'] then .other
    else .str := by
  have hempty : (String.ofList text != "" || text.isEmpty) = true := by
    cases text <;> simp
  have hlast : (text.getLast? == some '\n') = false := beq_eq_false_iff_ne.2 h
  unfold plainTag
  simp only [hlast, Bool.false_eq_true, if_false, hempty, Bool.and_true]

theorem isCollection_plainTag (text : List Char) : Node.isCollection (plainTag text) = false := by
  unfold plainTag
  dsimp only
  repeat' split
  all_goals rfl

/-- A text that does not begin with a point is none of some words that do. -/
theorem any_word_eq_false {ws : List String} (htext : text.head? ≠ some '.')
    (hws : ∀ w ∈ ws, w.toList.head? = some '.') : ws.any (·.toList == text) = false := by
  rw [List.any_eq_false]
  intro w hw heq
  rw [beq_iff_eq] at heq
  exact htext (heq ▸ hws w hw)

/-! ## Names -/

/-- A text that begins with a letter writes no number and no date. -/
theorem writesNone_of_letter {c : Char} (hc : isAsciiLetter c = true) (cs : List Char) :
    isFloatText (c :: cs) = false ∧ isIntText (c :: cs) = false ∧
      isStampText (c :: cs) = false := by
  have hfirst := forall_letter (fun c => !isAsciiDigit c && c != '+' && c != '-' && c != '.' &&
    c != '0') (by decide) hc
  simp only [Bool.and_eq_true, Bool.not_eq_true', bne_iff_ne] at hfirst
  obtain ⟨⟨⟨⟨hdigit, hplus⟩, hminus⟩, hpoint⟩, hzero⟩ := hfirst
  have hunsigned : unsigned (c :: cs) = c :: cs := by simp [unsigned, hplus, hminus]
  refine ⟨?_, ?_, ?_⟩
  · have hpointed : isPointed (c :: cs) = false := by simp [isPointed, hdigit]
    have hsixty : isSixtyPointed (c :: cs) = false := by simp [isSixtyPointed, hdigit]
    have hfraction : isFraction (c :: cs) = false := by
      unfold isFraction
      split
      · rename_i heq
        exact absurd (List.cons.inj heq).1 hpoint
      · rfl
    have hfirst : (c :: cs).head? ≠ some '.' := by simpa using hpoint
    simp only [isFloatText, hunsigned, hpointed, hfraction, hsixty]
    rw [any_word_eq_false hfirst (by decide), any_word_eq_false hfirst (by decide)]
    rfl
  · rw [isIntText, hunsigned]
    split
    · rename_i heq
      exact absurd (List.cons.inj heq).1 hzero
    · rename_i heq
      exact absurd (List.cons.inj heq).1 hzero
    · rename_i heq
      exact absurd (List.cons.inj heq).1 hzero
    · rename_i heq
      cases heq
      simp [hdigit]
    · rfl
  · have hstamp : digits? 4 (c :: cs) = none := by simp [digits?, hdigit]
    simp [isStampText, stamp?, hstamp]

theorem exists_buildBool {word : String} (h : word ∈ truthWords) : ∃ b, buildBool word = .ok b := by
  have hall : ∀ w ∈ truthWords, (buildBool w).toOption.isSome = true := by decide +kernel
  have := hall word h
  cases hb : buildBool word with
  | ok b => exact ⟨b, rfl⟩
  | error e =>
    rw [hb] at this
    cases this

/-- A name is a truth value, null or a text. -/
theorem exists_buildScalar_of_lettered (h : Lettered name) :
    plainTag name ≠ .merge ∧ plainTag name ≠ .value ∧
      ∃ key, buildScalar (plainTag name) (String.ofList name) = .ok key := by
  obtain ⟨c, cs, rfl⟩ := List.exists_cons_of_ne_nil h.nonempty
  have hc := h.letters c List.mem_cons_self
  obtain ⟨hfloat, hint, hstamp⟩ := writesNone_of_letter hc cs
  have hfirst := forall_letter (fun c => c != '<' && c != '=' && c != '!' && c != '&' &&
    c != '*') (by decide) hc
  simp only [Bool.and_eq_true, bne_iff_ne] at hfirst
  have hbreak : (c :: cs).getLast? ≠ some '\n' := by
    intro hlast
    have := h.letters _ (List.mem_of_getLast? hlast)
    cases this
  rw [plainTag_eq hbreak, hfloat, hint, hstamp]
  split
  · rename_i hword
    obtain ⟨b, hb⟩ := exists_buildBool (List.contains_iff_mem.1 hword)
    exact ⟨by decide, by decide, .bool b, by simp only [buildScalar, hb]; rfl⟩
  · simp [hfirst]
    split
    · exact ⟨by decide, by decide, .null, rfl⟩
    · exact ⟨by decide, by decide, _, rfl⟩

/-! ## Digits -/

theorem head?_toDigits {n : Nat} (h : 0 < n) : (Nat.toDigits 10 n).head? ≠ some '0' := by
  induction n using Nat.strongRecOn with
  | ind n ih =>
    rw [Nat.toDigits_eq_if (by decide)]
    split
    · intro heq
      have := Nat.digitChar_eq_zero.1 (Option.some.inj heq)
      omega
    · obtain ⟨c, cs, hcs⟩ := List.exists_cons_of_ne_nil
        (Nat.toDigits_ne_nil (b := 10) (n := n / 10))
      have := ih (n / 10) (by omega) (by omega)
      rwa [hcs] at this ⊢

theorem digits_isAsciiDigit (n : Nat) : ∀ c ∈ Nat.toDigits 10 n, isAsciiDigit c = true := by
  intro c hc
  have hdigit := Nat.isDigit_of_mem_toDigits (by decide) (by decide) hc
  simp only [Char.isDigit, Bool.and_eq_true, decide_eq_true_eq, ge_iff_le, UInt32.le_iff_toNat_le]
    at hdigit
  simp only [isAsciiDigit, Bool.and_eq_true, decide_eq_true_eq]
  exact hdigit

theorem digitsWithGaps?_digits (hds : ∀ c ∈ ds, isAsciiDigit c = true) (acc : Nat)
    (after : Bool) (hsome : after = true ∨ ds ≠ []) :
    digitsWithGaps? 10 acc after ds =
      some (ds.foldl (fun n c => 10 * n + (digitValue? c).getD 0) acc) := by
  induction ds generalizing acc after with
  | nil =>
    rw [hsome.resolve_right (not_not_intro rfl)]
    rfl
  | cons c ds ih =>
    obtain ⟨hc, hds⟩ := List.forall_mem_cons.1 hds
    have hgap : (c == '_') = false := by
      simpa using forall_digit (fun c => c != '_') (by decide) hc
    have hvalue : digitIn? 10 c = some ((digitValue? c).getD 0) := by
      have := forall_digit (fun c => digitIn? 10 c == some ((digitValue? c).getD 0)) (by decide) hc
      exact beq_iff_eq.1 this
    rw [digitsWithGaps?, hgap, hvalue]
    exact ih hds _ true (.inl rfl)

theorem wholeNumber_digits (hds : ∀ c ∈ ds, isAsciiDigit c = true) (hsome : ds ≠ [])
    (hlength : ds.length ≤ maxDigits) : wholeNumber 10 ds = .ok (natOfDigits ds) := by
  have hcount : ¬maxDigits < (ds.filter isDigit).length :=
    Nat.not_lt.2 ((List.length_filter_le _ _).trans hlength)
  have hblank : ∀ c ∈ ds, isBlank c = false := fun c hc => by
    simpa using forall_digit (fun c => !isBlank c) (by decide) (hds c hc)
  have htrim : trim isBlank ds = ds := trim_eq_self_iff.2
    ⟨fun c hc => hblank c (List.mem_of_mem_head? hc),
      fun c hc => hblank c (List.mem_of_mem_getLast? hc)⟩
  have hsign : splitSign ds = (false, ds) := by
    obtain ⟨c, cs, rfl⟩ := List.exists_cons_of_ne_nil hsome
    have := forall_digit (fun c => c != '-' && c != '+') (by decide) (hds c List.mem_cons_self)
    simp only [Bool.and_eq_true, bne_iff_ne] at this
    unfold splitSign
    split
    · rename_i heq
      exact absurd (List.cons.inj heq).1 this.1
    · rename_i heq
      exact absurd (List.cons.inj heq).1 this.2
    · rfl
  have hmark : dropBaseMark 10 ds = ds := by
    unfold dropBaseMark
    dsimp only
    split <;> rfl
  have hnumber : wholeOfText? 10 ds = some (natOfDigits ds : Int) := by
    rw [wholeOfText?, htrim, hsign]
    simp only [hmark, digitsWithGaps?_digits hds 0 false (.inr hsome)]
    rfl
  rw [wholeNumber, hnumber]
  simp [hcount]

/-- A sign in front of a number. -/
def signOf (negative : Bool) : List Char := if negative then ['-'] else []

theorem signAndRest_digits (hds : ∀ c ∈ ds, isAsciiDigit c = true) (hsome : ds ≠ [])
    (negative : Bool) : signAndRest (signOf negative ++ ds) = .ok (negative, ds) := by
  have hgaps : ds.filter (· != '_') = ds := List.filter_eq_self.2 fun c hc =>
    forall_digit (fun c => c != '_') (by decide) (hds c hc)
  obtain ⟨c, cs, rfl⟩ := List.exists_cons_of_ne_nil hsome
  have := forall_digit (fun c => c != '-' && c != '+') (by decide) (hds c List.mem_cons_self)
  simp only [Bool.and_eq_true, bne_iff_ne] at this
  cases negative
  · simp [signOf, signAndRest, hgaps, this]
  · simp [signOf, signAndRest, hgaps]

/-- **The number that digits are read as.** -/
theorem buildInt_digits {n : Nat} (hlength : (Nat.toDigits 10 n).length ≤ maxDigits)
    (negative : Bool) :
    buildInt (signOf negative ++ Nat.toDigits 10 n) = .ok (if negative then -n else n) := by
  have hds := digits_isAsciiDigit n
  have hsome : Nat.toDigits 10 n ≠ [] := Nat.toDigits_ne_nil
  have hwhole := wholeNumber_digits hds hsome hlength
  rw [natOfDigits_toDigits] at hwhole
  have hcolon : ':' ∉ Nat.toDigits 10 n := fun hmem => nomatch hds ':' hmem
  have hnumber : buildInt (signOf negative ++ Nat.toDigits 10 n) = (do
      let n ← wholeNumber 10 (Nat.toDigits 10 n)
      return if negative then -n else n) := by
    rw [buildInt, signAndRest_digits hds hsome]
    rcases Nat.eq_zero_or_pos n with rfl | hpos
    · rw [hwhole]
      rfl
    · have hhead := head?_toDigits hpos
      obtain ⟨c, cs, hcs⟩ := List.exists_cons_of_ne_nil hsome
      rw [hcs] at hhead hcolon ⊢
      have hzero : c ≠ '0' := fun h => hhead (h ▸ rfl)
      have hnot : ¬(':' = c ∨ ':' ∈ cs) := mt List.mem_cons.2 hcolon
      -- other bases begin with a zero, and sixtieths have a colon
      simp [bind, Except.bind, hzero, hnot]
  rw [hnumber, hwhole]
  rfl

/-! ## Texts that begin with digits -/

/-- Nothing, or a text that begins with a hyphen. -/
def EndsDigits (rest : List Char) : Prop := ∀ c ∈ rest.head?, c = '-'

theorem endsDigits_nil : EndsDigits [] := fun _ hc => nomatch hc

theorem endsDigits_hyphen (rest : List Char) : EndsDigits ('-' :: rest) := by simp [EndsDigits]

theorem dropWhile_spacedDigit (hds : ∀ c ∈ ds, isAsciiDigit c = true) (hrest : EndsDigits rest) :
    (ds ++ rest).dropWhile isSpacedDigit = rest := by
  rw [List.dropWhile_append_of_pos fun c hc => by rw [isSpacedDigit, hds c hc, Bool.true_or]]
  cases rest with
  | nil => rfl
  | cons c rest =>
    rw [hrest c rfl]
    rfl

theorem unsigned_digits (hds : ∀ c ∈ ds, isAsciiDigit c = true) (hsome : ds ≠ [])
    (negative : Bool) (rest : List Char) :
    unsigned (signOf negative ++ (ds ++ rest)) = ds ++ rest := by
  cases negative
  · obtain ⟨c, cs, rfl⟩ := List.exists_cons_of_ne_nil hsome
    have := forall_digit (fun c => c != '-' && c != '+') (by decide) (hds c List.mem_cons_self)
    simp only [Bool.and_eq_true, bne_iff_ne] at this
    simp [signOf, unsigned, this]
  · simp [signOf, unsigned]

theorem isFloatText_digits (hds : ∀ c ∈ ds, isAsciiDigit c = true) (hsome : ds ≠ [])
    (hrest : EndsDigits rest) (negative : Bool) :
    isFloatText (signOf negative ++ (ds ++ rest)) = false := by
  obtain ⟨hpointed, hsixty⟩ : isPointed (ds ++ rest) = false ∧
      isSixtyPointed (ds ++ rest) = false := by
    rw [isPointed, isSixtyPointed, dropWhile_spacedDigit hds hrest]
    cases rest with
    | nil => exact ⟨Bool.and_false _, Bool.and_false _⟩
    | cons c rest =>
      rw [hrest c rfl]
      exact ⟨Bool.and_false _, Bool.and_false _⟩
  obtain ⟨hfirst, hsigned⟩ : (ds ++ rest).head? ≠ some '.' ∧
      (signOf negative ++ (ds ++ rest)).head? ≠ some '.' := by
    obtain ⟨c, cs, rfl⟩ := List.exists_cons_of_ne_nil hsome
    have := forall_digit (fun c => c != '.') (by decide) (hds c List.mem_cons_self)
    cases negative <;> simp_all [signOf]
  have hfraction : isFraction (signOf negative ++ (ds ++ rest)) = false := by
    unfold isFraction
    split
    · rename_i heq
      rw [heq] at hsigned
      exact absurd rfl hsigned
    · rfl
  simp only [isFloatText, unsigned_digits hds hsome, hpointed, hfraction, hsixty]
  rw [any_word_eq_false hfirst (by decide), any_word_eq_false hsigned (by decide)]
  rfl

theorem isIntText_digits (n : Nat) (negative : Bool) :
    isIntText (signOf negative ++ Nat.toDigits 10 n) = true := by
  have hds := digits_isAsciiDigit n
  rw [isIntText, ← List.append_nil (Nat.toDigits 10 n), unsigned_digits hds Nat.toDigits_ne_nil,
    List.append_nil]
  rcases Nat.eq_zero_or_pos n with rfl | hpos
  · decide
  · have hhead := head?_toDigits hpos
    obtain ⟨c, cs, hcs⟩ := List.exists_cons_of_ne_nil (Nat.toDigits_ne_nil (b := 10) (n := n))
    rw [hcs] at hhead hds ⊢
    have hzero : c ≠ '0' := fun h => hhead (h ▸ rfl)
    obtain ⟨hc, hrest⟩ := List.forall_mem_cons.1 hds
    have hdrop := dropWhile_spacedDigit hrest endsDigits_nil
    rw [List.append_nil] at hdrop
    simp [hzero, hc, hdrop, afterSixtieths]

/-- A text that begins with a digit or a hyphen is none of the words for truth values and null. -/
theorem not_word_of_head? {c : Char} (hhead : text.head? = some c)
    (hc : isAsciiDigit c = true ∨ c = '-') :
    truthWords.contains (String.ofList text) = false ∧
      nullWords.contains (String.ofList text) = false := by
  have hall : ∀ w ∈ truthWords ++ nullWords,
      w.toList.head?.all (fun d => !isAsciiDigit d && d != '-') = true := by decide
  have hnot : String.ofList text ∉ truthWords ++ nullWords := by
    intro hmem
    have := hall _ hmem
    rw [String.toList_ofList, hhead] at this
    rcases hc with hc | rfl
    · simp [hc] at this
    · simp at this
  simpa using hnot

theorem head?_digits (hds : ∀ c ∈ ds, isAsciiDigit c = true) (hsome : ds ≠ []) (negative : Bool)
    (rest : List Char) : ∃ c, (signOf negative ++ (ds ++ rest)).head? = some c ∧
      (isAsciiDigit c = true ∨ c = '-') := by
  cases negative
  · obtain ⟨c, cs, rfl⟩ := List.exists_cons_of_ne_nil hsome
    exact ⟨c, rfl, .inl (hds c List.mem_cons_self)⟩
  · exact ⟨'-', rfl, .inr rfl⟩

/-- **Digits are read as a number.** -/
theorem plainTag_digits (n : Nat) (negative : Bool) :
    plainTag (signOf negative ++ Nat.toDigits 10 n) = .int := by
  have hds := digits_isAsciiDigit n
  have hsome : Nat.toDigits 10 n ≠ [] := Nat.toDigits_ne_nil
  obtain ⟨c, hhead, hc⟩ := head?_digits hds hsome negative []
  have hfloat := isFloatText_digits hds hsome endsDigits_nil negative
  rw [List.append_nil] at hhead hfloat
  have hbreak : (signOf negative ++ Nat.toDigits 10 n).getLast? ≠ some '\n' := by
    rw [List.getLast?_append_of_ne_nil _ hsome]
    exact fun hlast => nomatch hds '\n' (List.mem_of_getLast? hlast)
  rw [plainTag_eq hbreak, (not_word_of_head? hhead hc).1, hfloat, isIntText_digits]
  rfl

/-! ## Digits as plain lines -/

theorem isPlainLine_of_steady {c : Char} (hbegins : Scan.beginsPlain false c text.head? = true)
    (h : ∀ d ∈ c :: text, (isSteady d && isYamlChar d) = true) :
    isPlainLine (c :: text) = true := by
  have hsteady := goesOnAll_of_steady fun d hd => (Bool.and_eq_true_iff.1 (h d hd)).1
  have hyaml := List.all_eq_true.2 fun d hd => (Bool.and_eq_true_iff.1 (h d hd)).2
  rw [isPlainLine, hbegins, hsteady, hyaml]
  rfl

theorem beginsPlain_of_digit {c : Char} (hc : isAsciiDigit c = true) (more : List Char) :
    Scan.beginsPlain false c more.head? = true :=
  Scan.beginsPlain_of_none
    (forall_digit (fun c => Scan.beginsPlain false c none) (by decide) hc) more

theorem isPlainLine_digits (hds : ∀ c ∈ ds, isAsciiDigit c = true) (hsome : ds ≠ [])
    (negative : Bool) : isPlainLine (signOf negative ++ ds) = true := by
  have hall : ∀ c ∈ ds, (isSteady c && isYamlChar c) = true := fun c hc =>
    forall_digit (fun c => isSteady c && isYamlChar c) (by decide) (hds c hc)
  obtain ⟨c, cs, rfl⟩ := List.exists_cons_of_ne_nil hsome
  have hc := hds c List.mem_cons_self
  cases negative
  · exact isPlainLine_of_steady (beginsPlain_of_digit hc _) hall
  · have hgap : isBlankGap (some c) = false := by
      simpa using forall_digit (fun c => !isBlankGap (some c)) (by decide) hc
    refine isPlainLine_of_steady ?_ (List.forall_mem_cons.2 ⟨by decide, hall⟩)
    simp [Scan.beginsPlain, hgap]

end Outline.Yaml

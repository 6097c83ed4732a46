import Outline.Proofs.Expr.Tokens
import Outline.Proofs.Text.Blank

/-!
# Lexemes as text

How lexemes are written one after the other, and that cutting the text gives them back.

* `Lexeme.spelled`, `spell`: the text of lexemes; quotes and backslashes in strings are escaped;
* `Word`: a text that is cut as one token before whatever cannot go on with it;
* `Scans`, `scans_spell`: the text of lexemes is cut into these lexemes, if of each two neighbours
  one is a sign.
-/

namespace Outline

variable {c : Char} {cs ds w rest : List Char} {l : Lexeme} {ls ms : List Lexeme}

/-! ## The text of lexemes -/

/-- A character that is written in a string behind a backslash. -/
def needsEscape (c : Char) : Bool := c == '"' || c == '\\'

/-- A text with a backslash before each quote and backslash. -/
def escaped (cs : List Char) : List Char :=
  cs.flatMap fun c => if needsEscape c then ['\\', c] else [c]

/-- The text of a constant. -/
def Literal.spelled : Literal → List Char
  | .nat n => Nat.toDigits 10 n
  | .decimal digits places =>
    let ds := decimalDigits digits places
    ds.take (ds.length - places) ++ '.' :: ds.drop (ds.length - places)
  | .text s => '"' :: (escaped s.toList ++ ['"'])
  | .truth b => (if b then "true" else "false").toList

/-- The text of a sign, with blanks around it where they help a reader. -/
def Sign.spelled : Sign → List Char
  | .eq => [' ', '=', '=', ' ']
  | .ne => [' ', '!', '=', ' ']
  | .and => [' ', '&', '&', ' ']
  | .or => [' ', '|', '|', ' ']
  | .not => ['!']
  | .plus => [' ', '+', ' ']
  | .open_ => ['(']
  | .close => [')']
  | .comma => [',', ' ']

/-- The text of a lexeme. -/
def Lexeme.spelled : Lexeme → List Char
  | .literal l => l.spelled
  | .name s => s.toList
  | .sign s => s.spelled
  | .stop => []

/-- The text of lexemes. -/
def spell (ls : List Lexeme) : List Char := ls.flatMap Lexeme.spelled

/-! ## Strings -/

theorem stringBody_escaped (cs rest : List Char) :
    stringBody '"' (escaped cs ++ '"' :: rest) = some (escaped cs, rest) := by
  induction cs with
  | nil =>
    show stringBody '"' ('"' :: rest) = _
    rw [stringBody.eq_def]
    rfl
  | cons c cs ih =>
    rw [escaped, List.flatMap_cons, ← escaped]
    by_cases hc : needsEscape c = true
    · have hline : c ≠ '\n' := by
        rintro rfl
        cases hc
      rw [if_pos hc, List.append_assoc, List.cons_append, List.cons_append, stringBody.eq_def]
      simp [hline, ih]
    · rw [if_neg hc, List.append_assoc, List.cons_append, stringBody.eq_def]
      simp only [needsEscape, Bool.or_eq_true, beq_iff_eq, not_or] at hc
      simp [hc.1, hc.2, ih]

theorem unescape_escaped (cs : List Char) : unescape (escaped cs) = cs := by
  induction cs with
  | nil => rfl
  | cons c cs ih =>
    rw [escaped, List.flatMap_cons, ← escaped]
    by_cases hc : needsEscape c = true
    · rw [if_pos hc, List.cons_append, unescape.eq_def]
      simp only [needsEscape, Bool.or_eq_true, beq_iff_eq] at hc
      rcases hc with rfl | rfl <;> simp [ih]
    · rw [if_neg hc, List.cons_append, unescape.eq_def]
      simp only [needsEscape, Bool.or_eq_true, beq_iff_eq, not_or] at hc
      simp [hc.2, ih]

/-! ## Words -/

/-- A text that goes on neither with a name nor with a number. -/
def Apart (rest : List Char) : Prop :=
  ∀ c ∈ rest.head?, continuesName c = false ∧ isDigit c = false ∧ c ≠ '.'

/-- A character that a word of the language begins or ends with. -/
def isEdge (c : Char) : Bool := continuesName c || c == '"'

theorem isEdge_of_continuesName (h : continuesName c = true) : isEdge c = true := by
  rw [isEdge, h, Bool.true_or]

theorem continuesName_iff : continuesName c = true ↔
    65 ≤ c.toNat ∧ c.toNat ≤ 90 ∨ 97 ≤ c.toNat ∧ c.toNat ≤ 122 ∨
      48 ≤ c.toNat ∧ c.toNat ≤ 57 ∨ c = '_' := by
  simp only [continuesName, isAsciiAlnum, isAsciiLetter, Bool.or_eq_true, Bool.and_eq_true,
    decide_eq_true_eq, beq_iff_eq, or_assoc]

theorem isBlank_of_isEdge (h : isEdge c = true) : isBlank c = false := by
  have hrange : 33 ≤ c.toNat ∧ c.toNat ≤ 122 := by
    simp only [isEdge, Bool.or_eq_true, beq_iff_eq, continuesName_iff] at h
    rcases h with (h | h | h | rfl) | rfl
    · omega
    · omega
    · omega
    · decide
    · decide
  simp only [isBlank, Bool.or_eq_false_iff, Bool.and_eq_false_iff, decide_eq_false_iff_not,
    beq_eq_false_iff_ne]
  omega

theorem isEdge_of_isDigit (h : c.isDigit = true) : isEdge c = true := by
  simp only [Char.isDigit, Bool.and_eq_true, decide_eq_true_eq, ge_iff_le, UInt32.le_iff_toNat_le]
    at h
  exact isEdge_of_continuesName (continuesName_iff.2 (.inr (.inr (.inl h))))

theorem beginsName_iff : beginsName c = true ↔
    65 ≤ c.toNat ∧ c.toNat ≤ 90 ∨ 97 ≤ c.toNat ∧ c.toNat ≤ 122 ∨ c = '_' := by
  simp only [beginsName, isAsciiLetter, Bool.or_eq_true, Bool.and_eq_true, decide_eq_true_eq,
    beq_iff_eq, or_assoc]

theorem not_digit_of_beginsName (h : beginsName c = true) : isDigit c = false := by
  have hrange : 58 ≤ c.toNat ∧ c.toNat < 128 := by
    rcases beginsName_iff.1 h with h | h | rfl
    · omega
    · omega
    · decide
  unfold isDigit digitValue?
  dsimp only
  rw [if_pos hrange.2, if_neg (by simp; omega)]
  rfl

/-- A text that is cut as one token, before whatever cannot go on with it. -/
structure Word (l : Lexeme) (w : List Char) : Prop where
  ne_nil : w ≠ []
  first : ∀ c ∈ w.head?, isEdge c = true
  last : ∀ c ∈ w.getLast?, isEdge c = true
  cut : ∀ {rest}, Apart rest → lexeme? (w ++ rest) = some (l, w.length)
  fits : tooLong l w.length = false

theorem number_append (hds : ∀ d ∈ ds, isDigit d = true) (hrest : Apart rest) :
    number (ds ++ rest) = (.nat (natOfDigits ds), ds.length) := by
  have hdigit : ∀ c ∈ rest.head?, isDigit c = false := fun c hc => (hrest c hc).2.1
  unfold number
  rw [takeWhile_append_apart hds hdigit, dropWhile_append_apart hds hdigit]
  obtain _ | ⟨c, rest⟩ := rest
  · rfl
  · have hpoint : c ≠ '.' := (hrest c rfl).2.2
    dsimp only
    split
    · rename_i heq
      exact absurd (List.cons.inj heq).1 hpoint
    · rfl

theorem number_append_point {whole fraction : List Char} (hw : ∀ d ∈ whole, isDigit d = true)
    (hf : ∀ d ∈ fraction, isDigit d = true) (hsome : fraction ≠ []) (hrest : Apart rest) :
    number (whole ++ '.' :: (fraction ++ rest)) =
      (.decimal (natOfDigits (whole ++ fraction)) fraction.length,
        whole.length + 1 + fraction.length) := by
  have hpoint : ∀ c ∈ ('.' :: (fraction ++ rest)).head?, isDigit c = false := by
    intro c hc
    obtain rfl : '.' = c := Option.some.inj hc
    decide
  have hdigit : ∀ c ∈ rest.head?, isDigit c = false := fun c hc => (hrest c hc).2.1
  unfold number
  rw [takeWhile_append_apart hw hpoint, dropWhile_append_apart hw hpoint]
  simp [takeWhile_append_apart hf hdigit, hsome]

theorem lexeme?_of_isDigit {d : Char} (hd : isDigit d = true) :
    lexeme? (d :: cs) = some (.literal (number (d :: cs)).1, (number (d :: cs)).2) := by
  rw [lexeme?, if_pos hd]

/-- A name of ASCII letters, digits and underscores is a word. -/
theorem word_name {s : String} (hfirst : s.toList.head?.any beginsName = true)
    (hall : s.toList.all continuesName = true) : Word (lexemeOfName s) s.toList := by
  obtain ⟨c, hhead, hc⟩ := (Option.any_eq_true _ _).1 hfirst
  obtain ⟨cs, hs⟩ := List.head?_eq_some_iff.1 hhead
  rw [List.all_eq_true] at hall
  have hquote : (c == '"' || c == '\'') = false := by
    rw [Bool.or_eq_false_iff, beq_eq_false_iff_ne, beq_eq_false_iff_ne]
    constructor <;> rintro rfl <;> cases hc
  exact {
    ne_nil := by
      rw [hs]
      exact List.cons_ne_nil c cs
    first := fun d hd => isEdge_of_continuesName (hall d (List.mem_of_mem_head? hd))
    last := fun d hd => isEdge_of_continuesName (hall d (List.mem_of_mem_getLast? hd))
    cut := fun {rest} hrest => by
      have htake : (s.toList ++ rest).takeWhile continuesName = s.toList :=
        takeWhile_append_apart hall fun d hd => (hrest d hd).1
      rw [hs, List.cons_append] at htake ⊢
      rw [lexeme?, if_neg (by rw [not_digit_of_beginsName hc]; decide),
        if_neg (by rw [hquote]; decide), if_pos hc, htake, ← hs]
      dsimp only
      rw [String.ofList_toList]
    fits := (plain_lexemeOfName s).not_tooLong _ }

theorem word_text (s : String) : Word (.literal (.text s)) (Literal.text s).spelled where
  ne_nil := List.cons_ne_nil _ _
  first c hc := by
    obtain rfl : '"' = c := Option.some.inj hc
    decide
  last c hc := by
    rw [Literal.spelled, ← List.cons_append, List.getLast?_concat] at hc
    obtain rfl : '"' = c := Option.some.inj hc
    decide
  cut {rest} _ := by
    have hbody := stringBody_escaped s.toList rest
    simp only [Literal.spelled, List.cons_append, List.append_assoc, List.nil_append]
    rw [lexeme?, if_neg (by decide), if_pos (by decide), hbody]
    simp [unescape_escaped]
  fits := rfl

theorem asciiDigit_of_mem_toDigits {n : Nat} (h : c ∈ Nat.toDigits 10 n) : c.isDigit = true :=
  Nat.isDigit_of_mem_toDigits (by decide) (by decide) h

theorem word_nat {n : Nat} (h : (Literal.nat n).Short) :
    Word (.literal (.nat n)) (Literal.nat n).spelled where
  ne_nil := Nat.toDigits_ne_nil
  first c hc := isEdge_of_isDigit (asciiDigit_of_mem_toDigits (List.mem_of_mem_head? hc))
  last c hc := isEdge_of_isDigit (asciiDigit_of_mem_toDigits (List.mem_of_mem_getLast? hc))
  cut {rest} hrest := by
    have hdigits : ∀ d ∈ Nat.toDigits 10 n, isDigit d = true := fun d hd =>
      isDigit_of_asciiDigit (asciiDigit_of_mem_toDigits hd)
    have hnumber := number_append hdigits hrest
    obtain ⟨d, ds, hds⟩ := List.exists_cons_of_ne_nil (Nat.toDigits_ne_nil (b := 10) (n := n))
    have hd : isDigit d = true := hdigits d (hds ▸ List.mem_cons_self)
    rw [Literal.spelled]
    rw [natOfDigits_toDigits] at hnumber
    rw [hds, List.cons_append] at hnumber ⊢
    rw [lexeme?_of_isDigit hd, hnumber]
  fits := decide_eq_false (Nat.not_lt.2 h)

theorem isDigit_of_mem_decimalDigits {digits places : Nat} (h : c ∈ decimalDigits digits places) :
    c.isDigit = true := by
  rw [decimalDigits, List.leftpad] at h
  rcases List.mem_append.1 h with h | h
  · obtain rfl := List.eq_of_mem_replicate h
    decide
  · exact asciiDigit_of_mem_toDigits h

theorem natOfDigits_decimalDigits (digits places : Nat) :
    natOfDigits (decimalDigits digits places) = digits := by
  rw [decimalDigits, List.leftpad, natOfDigits_zeros, natOfDigits_toDigits]

/-- A decimal is written with digits on both sides of its point. -/
theorem decimal_spelled (digits : Nat) {places : Nat} (h : 0 < places) :
    ∃ whole fraction, (Literal.decimal digits places).spelled = whole ++ '.' :: fraction ∧
      whole ≠ [] ∧ fraction ≠ [] ∧ fraction.length = places ∧
      natOfDigits (whole ++ fraction) = digits ∧ ∀ d ∈ whole ++ fraction, d.isDigit = true := by
  have hlength : places + 1 ≤ (decimalDigits digits places).length := by
    rw [decimalDigits, List.length_leftpad]
    exact Nat.le_max_left _ _
  refine ⟨_, _, rfl, ?_, ?_, ?_, ?_, ?_⟩
  · rw [← List.length_pos_iff, List.length_take]
    omega
  · rw [← List.length_pos_iff, List.length_drop]
    omega
  · rw [List.length_drop]
    omega
  · rw [List.take_append_drop, natOfDigits_decimalDigits]
  · rw [List.take_append_drop]
    exact fun d hd => isDigit_of_mem_decimalDigits hd

theorem word_decimal {digits places : Nat} (h : 0 < places) :
    Word (.literal (.decimal digits places)) (Literal.decimal digits places).spelled := by
  obtain ⟨whole, fraction, hspelled, hwhole, hfraction, hplaces, hvalue, hdigits⟩ :=
    decimal_spelled digits h
  obtain ⟨hw, hf⟩ := List.forall_mem_append.1 hdigits
  rw [hspelled]
  exact {
    ne_nil := List.append_ne_nil_of_left_ne_nil hwhole _
    first := fun c hc => by
      rw [List.head?_append_of_ne_nil _ hwhole] at hc
      exact isEdge_of_isDigit (hw c (List.mem_of_mem_head? hc))
    last := fun c hc => by
      rw [List.getLast?_append_of_ne_nil _ (List.cons_ne_nil _ _),
        List.getLast?_cons_of_ne_nil hfraction] at hc
      exact isEdge_of_isDigit (hf c (List.mem_of_mem_getLast? hc))
    cut := fun {rest} hrest => by
      have hnumber := number_append_point (fun d hd => isDigit_of_asciiDigit (hw d hd))
        (fun d hd => isDigit_of_asciiDigit (hf d hd)) hfraction hrest
      obtain ⟨d, ds, rfl⟩ := List.exists_cons_of_ne_nil hwhole
      have hd : isDigit d = true := isDigit_of_asciiDigit (hw d List.mem_cons_self)
      rw [hvalue, hplaces] at hnumber
      rw [List.append_assoc, List.cons_append]
      rw [List.cons_append] at hnumber ⊢
      rw [lexeme?_of_isDigit hd, hnumber]
      simp only [List.length_append, List.length_cons, hplaces]
      congr 2
      omega
    fits := rfl }

theorem word_truth (b : Bool) : Word (.literal (.truth b)) (Literal.truth b).spelled := by
  have htrue : Word (lexemeOfName "true") "true".toList :=
    word_name (by decide) (by decide)
  have hfalse : Word (lexemeOfName "false") "false".toList :=
    word_name (by decide) (by decide)
  cases b with
  | true => exact htrue
  | false => exact hfalse

theorem word_variable (v : Variable) : Word (.name v.name) v.name.toList := by
  have hname : lexemeOfName v.name = .name v.name := by cases v <;> decide
  refine hname ▸ word_name ?_ ?_
  all_goals cases v <;> decide

theorem word_builtin (f : Builtin) : Word (.name f.name) f.name.toList := by
  have hname : lexemeOfName f.name = .name f.name := by cases f <;> decide
  refine hname ▸ word_name ?_ ?_
  all_goals cases f <;> decide

/-- Constants and names of the language are words, if their numbers are not too long. -/
theorem word_of_known (hsign : l.isSign = false) (hknown : l.Known)
    (hshort : ∀ k, l = .literal k → k.Short) : Word l l.spelled := by
  obtain k | s | s | _ := l
  · have hk := hshort k rfl
    cases k with
    | nat n => exact word_nat hk
    | decimal digits places => exact word_decimal hk.1
    | text s => exact word_text s
    | truth b => exact word_truth b
  · rcases hknown with ⟨v, rfl⟩ | ⟨f, rfl⟩
    · exact word_variable v
    · exact word_builtin f
  · cases hsign
  · exact hknown.elim

/-! ## Cutting the text of lexemes -/

/-- A text is cut into lexemes. -/
def Scans (cs : List Char) (ls : List Lexeme) : Prop :=
  ∀ fuel place, cs.length ≤ fuel →
    ∃ ts, tokensFrom fuel place cs = .ok ts ∧ lexemes ts = ls

namespace Scans

theorem nil : Scans [] [.stop] := fun fuel place _ => ⟨_, by rw [tokensFrom], rfl⟩

theorem blank (hc : isBlank c = true) (h : Scans cs ls) : Scans (c :: cs) ls := by
  intro fuel place hfuel
  obtain _ | fuel := fuel
  · cases hfuel
  · rw [tokensFrom, if_pos hc]
    exact h fuel (place + 1) (Nat.le_of_succ_le_succ hfuel)

theorem token (c : Char) (cs : List Char) (hblank : isBlank c = false)
    (hl : lexeme? (c :: (cs ++ rest)) = some (l, cs.length + 1))
    (hfits : tooLong l (cs.length + 1) = false) (h : Scans rest ls) :
    Scans (c :: (cs ++ rest)) (l :: ls) := by
  intro fuel place hfuel
  obtain _ | fuel := fuel
  · cases hfuel
  · have hrest : rest.length ≤ fuel := by
      rw [List.length_cons, List.length_append] at hfuel
      omega
    obtain ⟨ts, hts, hls⟩ := h fuel (place + (cs.length + 1)) hrest
    have hdrop : (c :: (cs ++ rest)).drop (cs.length + 1) = rest := List.drop_left
    rw [tokensFrom, if_neg (by rw [hblank]; decide), hl]
    dsimp only
    rw [if_neg (by rw [hfits]; decide), hdrop, hts]
    exact ⟨_, rfl, congrArg (l :: ·) hls⟩

theorem word (hw : Word l w) (hrest : Apart rest) (h : Scans rest ls) :
    Scans (w ++ rest) (l :: ls) := by
  obtain ⟨c, cs, rfl⟩ := List.exists_cons_of_ne_nil hw.ne_nil
  exact token c cs (isBlank_of_isEdge (hw.first c rfl)) (hw.cut hrest) hw.fits h

/-- A sign is cut off before a text that does not begin with the sign of equality. -/
theorem sign (s : Sign) (hrest : '=' ∉ rest.head?) (h : Scans rest ls) :
    Scans (s.spelled ++ rest) (.sign s :: ls) := by
  have hspace : Scans (' ' :: rest) ls := h.blank rfl
  cases s with
  | eq => exact .blank rfl (token '=' ['='] rfl rfl rfl hspace)
  | ne => exact .blank rfl (token '!' ['='] rfl rfl rfl hspace)
  | and => exact .blank rfl (token '&' ['&'] rfl rfl rfl hspace)
  | or => exact .blank rfl (token '|' ['|'] rfl rfl rfl hspace)
  | plus => exact .blank rfl (token '+' [] rfl rfl rfl hspace)
  | open_ => exact token '(' [] rfl rfl rfl h
  | close => exact token ')' [] rfl rfl rfl h
  | comma => exact token ',' [] rfl rfl rfl hspace
  | not =>
    have hcut : lexeme? ('!' :: rest) = some (.sign .not, 1) := by
      obtain _ | ⟨c, rest⟩ := rest
      · rfl
      · have hc : c ≠ '=' := fun heq => hrest (heq ▸ rfl)
        have hsign : sign? ('!' :: c :: rest) = some (.not, 1) := by
          unfold sign?
          split <;> simp_all
        rw [lexeme?, if_neg (by decide), if_neg (by decide), if_neg (by decide), hsign]
        rfl
    exact token '!' [] rfl hcut rfl h

end Scans

/-! ## Reading back -/

theorem Lexeme.exists_sign (h : l.isSign = true) : ∃ s, l = .sign s := by
  cases l with
  | sign s => exact ⟨s, rfl⟩
  | literal k => cases h
  | name s => cases h
  | stop => cases h

theorem Sign.spelled_ne_nil (s : Sign) : s.spelled ≠ [] := by cases s <;> decide

theorem Sign.apart (s : Sign) (rest : List Char) : Apart (s.spelled ++ rest) := by
  intro c hc
  rw [List.head?_append_of_ne_nil _ s.spelled_ne_nil] at hc
  cases s <;> (obtain rfl := Option.some.inj hc; decide)

theorem apart_spell (h : ∀ l ∈ ls.head?, l.isSign = true) : Apart (spell ls) := by
  obtain _ | ⟨l, ls⟩ := ls
  · nofun
  · obtain ⟨s, rfl⟩ := Lexeme.exists_sign (h l rfl)
    exact s.apart (spell ls)

/-- Lexemes of the language whose numbers are not too long. -/
def Writable (ls : List Lexeme) : Prop := ∀ l ∈ ls, l.Known ∧ ∀ k, l = .literal k → k.Short

theorem not_eq_of_spell (h : Writable ls) : '=' ∉ (spell ls).head? := by
  obtain _ | ⟨l, ls⟩ := ls
  · nofun
  · obtain ⟨hknown, hshort⟩ := h l List.mem_cons_self
    have hhead : ∀ {w}, w ≠ [] → '=' ∉ w.head? → '=' ∉ (w ++ spell ls).head? := by
      intro w hw hne
      rwa [List.head?_append_of_ne_nil _ hw]
    cases hsign : l.isSign with
    | false =>
      have hword := word_of_known hsign hknown hshort
      exact hhead hword.ne_nil fun heq => nomatch hword.first '=' heq
    | true =>
      obtain ⟨s, rfl⟩ := Lexeme.exists_sign hsign
      exact hhead s.spelled_ne_nil (by cases s <;> decide)

/-- **The text of lexemes is cut into these lexemes.** -/
theorem scans_spell (hspaced : Spaced ls) (hls : Writable ls) :
    Scans (spell ls) (ls ++ [.stop]) := by
  induction ls with
  | nil => exact .nil
  | cons l ls ih =>
    have hmore : Writable ls := fun l' hl' => hls l' (List.mem_cons_of_mem l hl')
    have hrest : Scans (spell ls) (ls ++ [.stop]) := ih (List.isChain_cons.1 hspaced).2 hmore
    obtain ⟨hknown, hshort⟩ := hls l List.mem_cons_self
    cases hsign : l.isSign with
    | false =>
      have hapart : Apart (spell ls) := apart_spell fun b hb =>
        ((List.isChain_cons.1 hspaced).1 b hb).resolve_left (by rw [hsign]; decide)
      exact hrest.word (word_of_known hsign hknown hshort) hapart
    | true =>
      obtain ⟨s, rfl⟩ := Lexeme.exists_sign hsign
      exact hrest.sign s (not_eq_of_spell hmore)

end Outline

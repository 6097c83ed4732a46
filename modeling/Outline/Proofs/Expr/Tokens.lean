import Mathlib.Data.List.TakeWhile
import Outline.Proofs.Expr.Sound
import Outline.Proofs.Text.Digits

/-!
# Tokens of a text

What cutting a text into tokens gives, if no number in it is too long: an end token behind tokens
that are none, or an error about the characters of the text.

* `TokenStart`: the places of a text where a token can begin;
* `ShortNumerals`: no number of a text has more digits than can be read;
* `Scanned`, `tokenize_outcome`: the tokens of such a text.
-/

namespace Outline

variable {c : Char} {cs rest : List Char} {l : Lexeme} {n : Nat}

/-! ## Numbers of a text -/

/-- The places of a text where a token can begin: its front, and what stands behind blanks and
whole tokens. -/
inductive TokenStart : List Char → List Char → Prop where
  | here (cs : List Char) : TokenStart cs cs
  | blank {c : Char} {cs rest : List Char} (hc : isBlank c = true) (h : TokenStart cs rest) :
      TokenStart (c :: cs) rest
  | token {cs rest : List Char} {l : Lexeme} {n : Nat} (hl : lexeme? cs = some (l, n))
      (h : TokenStart (cs.drop n) rest) : TokenStart cs rest

/-- The digits of the number at the front of a text. -/
def numeralDigits (cs : List Char) : List Char := (cs.take (number cs).2).filter isDigit

/-- **No number of a text has more digits than can be read.** Digits inside of strings and names do
not count. -/
def ShortNumerals (cs : List Char) : Prop :=
  ∀ c rest, TokenStart cs (c :: rest) → isDigit c = true →
    (numeralDigits (c :: rest)).length ≤ maxDigits

theorem ShortNumerals.blank (h : ShortNumerals (c :: cs)) (hc : isBlank c = true) :
    ShortNumerals cs := fun d rest hstart => h d rest (.blank hc hstart)

theorem ShortNumerals.token (h : ShortNumerals cs) (hl : lexeme? cs = some (l, n)) :
    ShortNumerals (cs.drop n) := fun d rest hstart => h d rest (.token hl hstart)

theorem TokenStart.length_le {rest : List Char} (h : TokenStart cs rest) :
    rest.length ≤ cs.length := by
  induction h with
  | here => exact le_rfl
  | blank _ _ ih => exact ih.trans (Nat.le_succ _)
  | token _ _ ih =>
    rw [List.length_drop] at ih
    omega

/-- A text with too long a number is too long itself. -/
theorem shortNumerals_of_length (h : cs.length ≤ maxDigits) : ShortNumerals cs := by
  intro c rest hstart _
  have htake : (numeralDigits (c :: rest)).length ≤ (c :: rest).length :=
    (List.length_filter_le _ _).trans (List.length_take_le' _ _)
  exact htake.trans (hstart.length_le.trans h)

theorem numeralDigits_of_front {numeral : List Char} (hfront : numeral <+: cs)
    (hlength : (number cs).2 = numeral.length) : numeralDigits cs = numeral.filter isDigit := by
  rw [numeralDigits, hlength, ← List.prefix_iff_eq_take.1 hfront]

theorem filter_takeWhile_isDigit (cs : List Char) :
    (cs.takeWhile isDigit).filter isDigit = cs.takeWhile isDigit :=
  List.filter_eq_self.2 fun _ hc => List.mem_takeWhile_imp hc

/-- A number is whole, or it has a point and digits on both sides of it. -/
theorem number_cases (hc : isDigit c = true) (rest : List Char) :
    (∃ ds, numeralDigits (c :: rest) = ds ∧ ds ≠ [] ∧
      number (c :: rest) = (.nat (natOfDigits ds), ds.length)) ∨
    ∃ whole fraction, numeralDigits (c :: rest) = whole ++ fraction ∧ whole ≠ [] ∧ fraction ≠ [] ∧
      number (c :: rest) = (.decimal (natOfDigits (whole ++ fraction)) fraction.length,
        whole.length + 1 + fraction.length) := by
  have hwhole : (c :: rest).takeWhile isDigit ≠ [] := by
    rw [List.takeWhile_cons_of_pos hc]
    exact List.cons_ne_nil _ _
  have hnat : number (c :: rest) = (.nat (natOfDigits ((c :: rest).takeWhile isDigit)),
      ((c :: rest).takeWhile isDigit).length) → ∃ ds, numeralDigits (c :: rest) = ds ∧ ds ≠ [] ∧
        number (c :: rest) = (.nat (natOfDigits ds), ds.length) := by
    intro hnumber
    refine ⟨_, ?_, hwhole, hnumber⟩
    rw [numeralDigits_of_front (List.takeWhile_prefix isDigit) (by rw [hnumber]),
      filter_takeWhile_isDigit]
  cases hdrop : (c :: rest).dropWhile isDigit with
  | nil => exact .inl (hnat (by simp only [number, hdrop]))
  | cons d tail =>
    by_cases hpoint : d = '.'
    · subst hpoint
      by_cases hfraction : tail.takeWhile isDigit = []
      · exact .inl (hnat (by simp [number, hdrop, hfraction]))
      · right
        have hnumber : number (c :: rest) =
            (.decimal (natOfDigits ((c :: rest).takeWhile isDigit ++ tail.takeWhile isDigit))
                (tail.takeWhile isDigit).length,
              ((c :: rest).takeWhile isDigit).length + 1 + (tail.takeWhile isDigit).length) := by
          simp [number, hdrop, hfraction]
        have hfront : (c :: rest).takeWhile isDigit ++ '.' :: tail.takeWhile isDigit <+:
            c :: rest := by
          refine ⟨tail.dropWhile isDigit, ?_⟩
          rw [List.append_assoc, List.cons_append, List.takeWhile_append_dropWhile, ← hdrop,
            List.takeWhile_append_dropWhile]
        refine ⟨_, _, ?_, hwhole, hfraction, hnumber⟩
        rw [numeralDigits_of_front hfront, List.filter_append, filter_takeWhile_isDigit,
          List.filter_cons_of_neg (by decide), filter_takeWhile_isDigit]
        rw [hnumber, List.length_append, List.length_cons]
        omega
    · refine .inl (hnat ?_)
      simp only [number, hdrop]
      split
      · rename_i heq
        exact absurd (List.cons.inj heq).1 hpoint
      · rfl

/-- What is read from digits that are not too many has not too many digits either. -/
theorem short_number (hc : isDigit c = true)
    (h : (numeralDigits (c :: rest)).length ≤ maxDigits) : (number (c :: rest)).1.Short := by
  have hdigits : ∀ {ds : List Char}, ds ≠ [] →
      (Nat.toDigits 10 (natOfDigits ds)).length ≤ ds.length := fun {ds} hsome =>
    (Nat.length_toDigits_le_iff (by decide) (List.length_pos_iff.2 hsome)).2 (natOfDigits_lt ds)
  rcases number_cases hc rest with
    ⟨ds, hds, hsome, hnumber⟩ | ⟨whole, fraction, hds, hwhole, hfraction, hnumber⟩
  · rw [hnumber]
    rw [hds] at h
    exact (hdigits hsome).trans h
  · rw [hnumber]
    rw [hds, List.length_append] at h
    have hlength := hdigits (List.append_ne_nil_of_left_ne_nil hwhole fraction)
    have hpos := List.length_pos_iff.2 hwhole
    rw [List.length_append] at hlength
    refine ⟨List.length_pos_iff.2 hfraction, ?_⟩
    rw [decimalDigits, List.length_leftpad]
    omega

theorem not_tooLong_number (hc : isDigit c = true)
    (h : (numeralDigits (c :: rest)).length ≤ maxDigits) :
    tooLong (.literal (number (c :: rest)).1) (number (c :: rest)).2 = false := by
  rcases number_cases hc rest with
    ⟨ds, hds, -, hnumber⟩ | ⟨whole, fraction, -, -, -, hnumber⟩
  · rw [hnumber]
    rw [hds] at h
    exact decide_eq_false (Nat.not_lt.2 h)
  · rw [hnumber]
    rfl

/-! ## Tokens -/

/-- A lexeme that is neither a number nor the end. -/
def Lexeme.Plain : Lexeme → Prop
  | .literal (.text _) | .literal (.truth _) | .name _ | .sign _ => True
  | _ => False

theorem plain_lexemeOfName (s : String) : (lexemeOfName s).Plain := by
  unfold lexemeOfName
  split_ifs <;> trivial

theorem lexeme?_cases (h : lexeme? (c :: cs) = some (l, n)) :
    isDigit c = true ∧ l = .literal (number (c :: cs)).1 ∧ n = (number (c :: cs)).2 ∨ l.Plain := by
  rw [lexeme?] at h
  split_ifs at h with hdigit hquote hname
  · obtain ⟨rfl, rfl⟩ := Prod.mk.inj (Option.some.inj h)
    exact .inl ⟨hdigit, rfl, rfl⟩
  · obtain ⟨r, -, hr⟩ := Option.map_eq_some_iff.1 h
    obtain ⟨rfl, -⟩ := Prod.mk.inj hr
    exact .inr trivial
  · obtain ⟨rfl, -⟩ := Prod.mk.inj (Option.some.inj h)
    exact .inr (plain_lexemeOfName _)
  · obtain ⟨r, -, hr⟩ := Option.map_eq_some_iff.1 h
    obtain ⟨rfl, -⟩ := Prod.mk.inj hr
    exact .inr trivial

/-- A lexeme that is not the end, nor a number that is too long. -/
def Lexeme.Fit (l : Lexeme) : Prop := l ≠ .stop ∧ ∀ k, l = .literal k → k.Short

theorem Lexeme.Plain.fit (h : l.Plain) : l.Fit := by
  refine ⟨?_, ?_⟩
  · rintro rfl
    exact h
  · rintro k rfl
    cases k <;> first | exact h.elim | trivial

theorem Lexeme.Plain.not_tooLong (h : l.Plain) (n : Nat) : tooLong l n = false := by
  obtain k | s | s | _ := l
  · cases k <;> first | exact h.elim | rfl
  all_goals rfl

theorem fit_of_lexeme? (hshort : ShortNumerals (c :: cs))
    (h : lexeme? (c :: cs) = some (l, n)) : l.Fit ∧ tooLong l n = false := by
  rcases lexeme?_cases h with ⟨hc, rfl, rfl⟩ | hplain
  · have hlength := hshort c cs (.here _) hc
    refine ⟨⟨nofun, ?_⟩, not_tooLong_number hc hlength⟩
    intro k hk
    exact Lexeme.literal.inj hk ▸ short_number hc hlength
  · exact ⟨hplain.fit, hplain.not_tooLong n⟩

/-- The tokens of a text: fit lexemes, and one end token behind them. -/
def Scanned (ts : List Token) : Prop :=
  ∃ body t, ts = body ++ [t] ∧ t.lexeme = .stop ∧ ∀ l ∈ lexemes body, l.Fit

theorem scanned_singleton (place : Nat) : Scanned [⟨.stop, [], place⟩] :=
  ⟨[], _, rfl, rfl, List.forall_mem_nil _⟩

theorem Scanned.cons {ts : List Token} {t : Token} (ht : t.lexeme.Fit) (h : Scanned ts) :
    Scanned (t :: ts) := by
  obtain ⟨body, last, rfl, hlast, hbody⟩ := h
  exact ⟨t :: body, last, rfl, hlast, List.forall_mem_cons.2 ⟨ht, hbody⟩⟩

theorem tokensFrom_outcome {fuel place : Nat} (h : ShortNumerals cs) :
    (∃ ts, tokensFrom fuel place cs = .ok ts ∧ Scanned ts) ∨
      ∃ e, tokensFrom fuel place cs = .error e ∧ ∀ count, e ≠ .tooManyDigits count := by
  fun_induction tokensFrom fuel place cs with
  | case1 fuel place => exact .inl ⟨_, rfl, scanned_singleton place⟩
  | case2 place cs => exact .inl ⟨_, rfl, scanned_singleton place⟩
  | case3 fuel place c cs hblank ih => exact ih (h.blank hblank)
  | case4 => exact .inr ⟨_, rfl, nofun⟩
  | case5 => exact .inr ⟨_, rfl, nofun⟩
  | case6 fuel place c cs _ l n hl hlong =>
    rw [(fit_of_lexeme? h hl).2] at hlong
    cases hlong
  | case7 fuel place c cs _ l n hl _ ih =>
    rcases ih (h.token hl) with ⟨ts, hts, hscanned⟩ | ⟨e, he, hcount⟩
    · rw [hts]
      exact .inl ⟨_, rfl, hscanned.cons (fit_of_lexeme? h hl).1⟩
    · rw [he]
      exact .inr ⟨e, rfl, hcount⟩

/-- **A text whose numbers are not too long** has tokens, or an error about its characters. -/
theorem tokenize_outcome (h : ShortNumerals cs) :
    (∃ ts, tokenize cs = .ok ts ∧ Scanned ts) ∨
      ∃ e, tokenize cs = .error e ∧ ∀ count, e ≠ .tooManyDigits count := tokensFrom_outcome h

end Outline

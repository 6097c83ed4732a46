import Mathlib
import Outline.Proofs.Expr.Blame
import Outline.Proofs.Expr.Print

/-!
# Expressions are compiled by their grammar

Main statement: `compile_accepts_exactly`. What a tree is printed as is compiled to this tree, and
every text whose numbers are not too long is compiled to a tree of the language or refused with an
error about its syntax; its tokens are read by the grammar and not beyond their end.

* `ReadsExactly`: tokens are read by the grammar, with one end token that nothing is read behind;
* `readsExactly_of_scanned`: so are the tokens of every text whose numbers are not too long;
* `ExprError.IsSyntax`: errors about the syntax of a text.
-/

namespace Outline

variable {cs : List Char} {ts : List Token}

/-! ## Tokens -/

/-- **Tokens that are read exactly.** One end token stands at their back. The trees that are read
are those that the grammar writes with the tokens before it; errors are about the given tokens; the
end token is never taken, no token behind it changes the result, and neither do further steps. -/
structure ReadsExactly (ts : List Token) : Prop where
  ends : ∃ t ∈ ts.getLast?, t.lexeme = .stop
  once : .stop ∉ lexemes ts.dropLast
  accepts : ∀ e, readTokens ts = .ok e ↔ Derives .or e (lexemes ts.dropLast)
  refuses : ∀ err, readTokens ts = .error err → Blames ts err
  leaves : ∀ e rest, readLevel (readingFuel ts) .or ts = .ok (e, rest) → .stop ∈ lexemes rest
  bounded : ∀ extra, readTokens (ts ++ extra) = readTokens ts
  enough : ∀ n, readingFuel ts ≤ n → readLevel n .or ts = readLevel (readingFuel ts) .or ts

theorem Scanned.ended (h : Scanned ts) : Ended ts := by
  obtain ⟨body, t, rfl, ht, -⟩ := h
  rw [Ended, lexemes_append]
  exact List.mem_append_right _ (ht ▸ List.mem_cons_self)

theorem readsExactly_of_scanned (h : Scanned ts) : ReadsExactly ts := by
  have hended := h.ended
  obtain ⟨body, t, rfl, ht, hbody⟩ := h
  have hdrop : (body ++ [t]).dropLast = body := List.dropLast_concat
  have hstop : .stop ∉ lexemes body := fun hmem => (hbody _ hmem).1 rfl
  exact {
    ends := ⟨t, List.getLast?_concat, ht⟩
    once := by rwa [hdrop]
    accepts := fun e => by
      rw [hdrop]
      exact readTokens_eq_ok_iff ht hstop
    refuses := fun err herr => blames_of_readTokens hended herr
    leaves := fun e rest hread => hended.readLevel hread
    bounded := readTokens_append hended
    enough := fun n hn => readLevel_of_le hended hn }

/-! ## Texts -/

/-- An error about the syntax of a text: any but that of a number with too many digits. -/
def ExprError.IsSyntax (err : ExprError) : Prop := ∀ count, err ≠ .token (.tooManyDigits count)

theorem Blames.isSyntax {err : ExprError} (h : Blames ts err) : err.IsSyntax := by
  rintro count rfl
  exact h

theorem read_outcome (h : ShortNumerals cs) :
    (∃ e, Expression.read cs = .ok e ∧ e.WellFormed) ∨
      ∃ err, Expression.read cs = .error err ∧ err.IsSyntax := by
  unfold Expression.read
  rcases tokenize_outcome h with ⟨ts, hts, hscanned⟩ | ⟨err, herr, hcount⟩
  · rw [hts]
    dsimp only
    have hexact := readsExactly_of_scanned hscanned
    obtain ⟨body, t, rfl, -, hbody⟩ := hscanned
    cases hread : readTokens (body ++ [t]) with
    | error err => exact .inr ⟨err, rfl, (hexact.refuses err hread).isSyntax⟩
    | ok e =>
      have hderives := (hexact.accepts e).1 hread
      rw [List.dropLast_concat] at hderives
      exact .inl ⟨e, rfl, hderives.wellFormed_iff.2 fun l hl => (hbody _ hl).2 l rfl⟩
  · rw [herr]
    refine .inr ⟨_, rfl, fun count hcontra => hcount count ?_⟩
    exact ExprError.token.inj hcontra

/-- **The compiler of expressions accepts exactly its grammar.** A printed tree is compiled to this
tree. A text whose numbers are not too long gives a tree of the language or an error about its
syntax, and its tokens are read exactly. -/
theorem compile_accepts_exactly :
    (∀ e : Expr, e.WellFormed → Expression.compile e.print = .ok ⟨e.print, e⟩) ∧
    ∀ source : String, ShortNumerals (strip source).toList →
      ((∃ x, Expression.compile source = .ok x ∧ x.tree.WellFormed) ∨
        ∃ err, Expression.compile source = .error err ∧ err.IsSyntax) ∧
      ∀ ts, tokenize (strip source).toList = .ok ts → ReadsExactly ts := by
  refine ⟨fun e he => compile_of_derives (derives_lexemesAt he .or) he, fun source h => ⟨?_, ?_⟩⟩
  · simp only [Expression.compile]
    rcases read_outcome h with ⟨e, he, hwell⟩ | ⟨err, herr, hsyntax⟩
    · rw [he]
      exact .inl ⟨_, rfl, hwell⟩
    · rw [herr]
      exact .inr ⟨err, rfl, hsyntax⟩
  · intro ts hts
    rcases tokenize_outcome h with ⟨ts', hts', hscanned⟩ | ⟨err, herr, -⟩
    · rw [hts] at hts'
      exact Except.ok.inj hts' ▸ readsExactly_of_scanned hscanned
    · rw [hts] at herr
      cases herr

/-- A tree with every kind of constant and bracket. -/
def sampleTree : Expr :=
  .binary .and
    (.binary .ne (.call .replace [.var .filename, .lit (.text "\"\\n"), .lit (.text "")])
      (.binary .plus (.lit (.nat 10)) (.lit (.decimal 5 2))))
    (.not (.binary .or (.not (.var .level)) (.lit (.truth true))))

theorem wellFormed_sampleTree : sampleTree.WellFormed := by
  refine .binary _ (.binary _ (.call rfl ?_) (.binary _ (.lit ?_) (.lit ?_)))
    (.not (.binary _ (.not (.var _)) (.lit trivial)))
  · simp only [List.forall_mem_cons]
    exact ⟨.var _, .lit trivial, .lit trivial, List.forall_mem_nil _⟩
  · show (Nat.toDigits 10 10).length ≤ maxDigits
    decide
  · exact ⟨by decide, by decide⟩

/-- The sample tree is printed with the brackets that it needs and read back; a text that breaks off
inside of brackets is refused at the token that cannot stand there. -/
theorem compile_accepts_sample :
    (sampleTree.WellFormed ∧
      sampleTree.print =
        "replace(filename, \"\\\"\\\\n\", \"\") != 10 + 0.05 && !(!level || true)" ∧
      Expression.compile sampleTree.print = .ok ⟨sampleTree.print, sampleTree⟩) ∧
    ShortNumerals (strip " level == (1.5 + == ").toList ∧
      Expression.compile " level == (1.5 + == " =
        .error (.expected .value ⟨.sign .eq, ['=', '='], 16⟩) ∧
      ((∃ x, Expression.compile " level == (1.5 + == " = .ok x ∧ x.tree.WellFormed) ∨
        ∃ err, Expression.compile " level == (1.5 + == " = .error err ∧ err.IsSyntax) ∧
      ∃ ts, tokenize (strip " level == (1.5 + == ").toList = .ok ts ∧ ts.length = 7 ∧
        ReadsExactly ts := by
  have hlength : (strip " level == (1.5 + == ").toList.length ≤ maxDigits := by cbv
  have hshort := shortNumerals_of_length hlength
  obtain ⟨houtcome, hexact⟩ := compile_accepts_exactly.2 " level == (1.5 + == " hshort
  refine ⟨⟨wellFormed_sampleTree, by cbv, ?_⟩, hshort, by cbv, houtcome, ?_⟩
  · exact compile_accepts_exactly.1 sampleTree wellFormed_sampleTree
  · have hts : tokenize (strip " level == (1.5 + == ").toList =
        .ok [⟨.name "level", ['l', 'e', 'v', 'e', 'l'], 0⟩, ⟨.sign .eq, ['=', '='], 6⟩,
          ⟨.sign .open_, ['('], 9⟩, ⟨.literal (.decimal 15 1), ['1', '.', '5'], 10⟩,
          ⟨.sign .plus, ['+'], 14⟩, ⟨.sign .eq, ['=', '='], 16⟩, ⟨.stop, [], 18⟩] := by cbv
    exact ⟨_, hts, rfl, hexact _ hts⟩

end Outline

import Outline.Proofs.Expr.Sound

/-!
# What the errors of the reader of expressions say

An error of the reader is about the tokens that it was given, up to their end token.

* `Blames`: the token or the name in an error is one of the given ones, and the name or the number
  of arguments is indeed wrong;
* `Blaming`: the five readers give such errors only, with a number of steps;
* `blames_of_readTokens`: so does the reader of whole expressions.
-/

namespace Outline

variable {ts mid rest : List Token} {level : Level} {err : ExprError}

/-- What an error says is so of some tokens. -/
def Blames (ts : List Token) : ExprError → Prop
  | .expected _ found => found ∈ ts
  | .unknownVariable name => .name name ∈ lexemes ts ∧ Variable.ofName? name = none
  | .unknownFunction name => .name name ∈ lexemes ts ∧ Builtin.ofName? name = none
  | .arity f got => .name f.name ∈ lexemes ts ∧ got ≠ f.arity
  | .token _ | .notText _ => False

theorem Blames.of_suffix (hsuffix : rest <:+ ts) (h : Blames rest err) : Blames ts err := by
  have hmem : ∀ {l}, l ∈ lexemes rest → l ∈ lexemes ts := fun hl =>
    (hsuffix.map Token.lexeme).mem hl
  cases err with
  | expected what found => exact hsuffix.mem h
  | unknownVariable name => exact h.imp_left hmem
  | unknownFunction name => exact h.imp_left hmem
  | arity f got => exact h.imp_left hmem
  | token e => exact h
  | notText kind => exact h

theorem Taken.blames {P : List Lexeme → Prop} (h : Taken ts rest P) (herr : Blames rest err) :
    Blames ts err := herr.of_suffix h.suffix

theorem Ended.frontToken_mem (hended : Ended ts) : frontToken ts ∈ ts := by
  obtain _ | ⟨t, ts⟩ := ts
  · cases hended
  · exact List.mem_cons_self

/-- The errors that the readers give within a number of steps. -/
structure Blaming (n : Nat) : Prop where
  level : ∀ {level ts err}, Ended ts → readLevel n level ts = .error err → Blames ts err
  more : ∀ {level a ts err}, Ended ts → readMore n level a ts = .error err → Blames ts err
  operand : ∀ {ts err}, Ended ts → readOperand n ts = .error err → Blames ts err
  arguments : ∀ {ts err}, Ended ts → readArguments n ts = .error err → Blames ts err
  further : ∀ {acc ts err}, Ended ts → readFurther n acc ts = .error err → Blames ts err

namespace Blaming

variable {n : Nat}

theorem front {α : Type} {what : Expected} (hended : Ended ts)
    (h : (.error (.expected what (frontToken ts)) : Except ExprError α) = .error err) :
    Blames ts err := by
  obtain rfl := Except.error.inj h
  exact hended.frontToken_mem

theorem zero : Blaming 0 where
  level hended h := front hended h
  more hended h := front hended h
  operand hended h := front hended h
  arguments hended h := front hended h
  further hended h := front hended h

/-- An error of a reader that begins with a level: the level itself gives it, or what comes then
gives it about the tokens that are left. -/
theorem andThen {α : Type} {f : Expr × List Token → Except ExprError α} (ih : Blaming n)
    (hended : Ended ts) (h : (readLevel n level ts >>= f) = .error err)
    (hrest : ∀ a rest, Ended rest → f (a, rest) = .error err → Blames rest err) :
    Blames ts err := by
  rcases bind_eq_error h with herr | ⟨⟨a, rest⟩, hread, herr⟩
  · exact ih.level hended herr
  · exact (derives_of_readLevel hread).blames (hrest a rest (hended.readLevel hread) herr)

/-- The same if nothing can fail behind the level. -/
theorem thenOk {α : Type} {f : Expr × List Token → α} (ih : Blaming n) (hended : Ended ts)
    (h : (readLevel n level ts >>= fun r => Except.ok (f r)) = .error err) : Blames ts err := by
  refine ih.andThen hended h fun a rest _ herr => ?_
  cases herr

theorem chain (ih : Blaming n) (hop : level.operator?.isSome) (hended : Ended ts)
    (h : readLevel (n + 1) level ts = .error err) : Blames ts err := by
  rw [readLevel_of_operator n hop] at h
  exact ih.andThen hended h fun a rest hrest herr => ih.more hrest herr

theorem not (ih : Blaming n) (hended : Ended ts) (h : readLevel (n + 1) .not ts = .error err) :
    Blames ts err := by
  rw [readLevel] at h
  split at h
  · rename_i rest hnot
    refine (taken_of_afterSign? hnot).blames ?_
    exact ih.thenOk (hended.afterSign hnot) h
  · exact ih.level hended h

theorem comparison (ih : Blaming n) (hended : Ended ts)
    (h : readLevel (n + 1) .comparison ts = .error err) : Blames ts err := by
  simp only [readLevel] at h
  refine ih.andThen hended h fun a mid hmid herr => ?_
  dsimp only at herr
  split at herr
  · rename_i heq
    refine (taken_of_afterSign? heq).blames ?_
    exact ih.thenOk (hmid.afterSign heq) herr
  · rename_i hne
    refine (taken_of_afterSign? hne).blames ?_
    exact ih.thenOk (hmid.afterSign hne) herr
  · cases herr

theorem readsMore (ih : Blaming n) {a : Expr} (hended : Ended ts)
    (h : readMore (n + 1) level a ts = .error err) : Blames ts err := by
  rw [readMore] at h
  split at h
  · cases h
  · split at h
    · cases h
    · rename_i rest hs
      refine (taken_of_afterSign? hs).blames ?_
      exact ih.andThen (hended.afterSign hs) h fun _ _ hrest herr => ih.more hrest herr

theorem readsFurther (ih : Blaming n) {acc : List Expr} (hended : Ended ts)
    (h : readFurther (n + 1) acc ts = .error err) : Blames ts err := by
  rw [readFurther] at h
  split at h
  · rename_i rest hcomma
    refine (taken_of_afterSign? hcomma).blames ?_
    exact ih.andThen (hended.afterSign hcomma) h fun _ _ hrest herr => ih.further hrest herr
  · split at h
    · cases h
    · exact front hended h

theorem readsArguments (ih : Blaming n) (hended : Ended ts)
    (h : readArguments (n + 1) ts = .error err) : Blames ts err := by
  rw [readArguments] at h
  split at h
  · cases h
  · exact ih.andThen hended h fun _ _ hrest herr => ih.further hrest herr

theorem named (ih : Blaming n) {t : Token} {name : String} (ht : t.lexeme = .name name)
    (hended : Ended ts) (h : readOperand (n + 1) (t :: ts) = .error err) :
    Blames (t :: ts) err := by
  have hname : Lexeme.name name ∈ lexemes (t :: ts) := ht ▸ List.mem_cons_self
  simp only [readOperand, ht] at h
  split at h
  · rename_i rest hopen
    split at h
    · rename_i hf
      obtain rfl := Except.error.inj h
      exact ⟨hname, hf⟩
    · rename_i f hf
      have hsuffix : rest <:+ t :: ts :=
        (taken_of_afterSign? hopen).suffix.trans (List.suffix_cons t ts)
      rcases bind_eq_error h with herr | ⟨⟨args, rest'⟩, -, herr⟩
      · exact (ih.arguments (hended.afterSign hopen) herr).of_suffix hsuffix
      · dsimp only at herr
        split at herr
        · cases herr
        · rename_i harity
          obtain rfl := Except.error.inj herr
          exact ⟨Builtin.name_of_ofName? hf ▸ hname, harity⟩
  · split at h
    · rename_i hv
      obtain rfl := Except.error.inj h
      exact ⟨hname, hv⟩
    · cases h

theorem readsOperand (ih : Blaming n) (hended : Ended ts)
    (h : readOperand (n + 1) ts = .error err) : Blames ts err := by
  obtain _ | ⟨t, ts⟩ := ts
  · cases hended
  have hrest : ∀ {l}, t.lexeme = l → .stop ≠ l → Ended ts := fun hl hne =>
    (List.mem_cons.1 hended).resolve_left (hl.symm ▸ hne)
  have hself : (.error (.expected .value t) : Except ExprError (Expr × List Token)) =
      .error err → Blames (t :: ts) err := front hended
  cases ht : t.lexeme with
  | literal l =>
    simp only [readOperand, ht] at h
    cases h
  | name name => exact ih.named ht (hrest ht Lexeme.noConfusion) h
  | stop =>
    simp only [readOperand, ht] at h
    exact hself h
  | sign s =>
    cases s with
    | open_ =>
      simp only [readOperand, ht] at h
      refine Blames.of_suffix (List.suffix_cons t ts) ?_
      refine ih.andThen (hrest ht Lexeme.noConfusion) h fun a mid hmid herr => ?_
      dsimp only at herr
      split at herr
      · cases herr
      · exact front hmid herr
    | _ =>
      simp only [readOperand, ht] at h
      exact hself h

theorem succ (ih : Blaming n) : Blaming (n + 1) where
  level {level ts err} hended h := by
    cases level with
    | or => exact ih.chain rfl hended h
    | and => exact ih.chain rfl hended h
    | not => exact ih.not hended h
    | comparison => exact ih.comparison hended h
    | sum => exact ih.chain rfl hended h
    | operand => exact ih.operand hended h
  more := ih.readsMore
  operand := ih.readsOperand
  arguments := ih.readsArguments
  further := ih.readsFurther

end Blaming

/-- The readers blame what they were given, whatever the number of steps. -/
theorem blaming (n : Nat) : Blaming n := by
  induction n with
  | zero => exact .zero
  | succ n ih => exact ih.succ

/-- **An error of the reader is about its tokens.** -/
theorem blames_of_readTokens (hended : Ended ts) (h : readTokens ts = .error err) :
    Blames ts err := by
  rw [readTokens] at h
  split at h
  · exact Blaming.front hended h
  · refine (blaming _).andThen hended h fun a rest hrest herr => ?_
    dsimp only at herr
    split at herr
    · cases herr
    · exact Blaming.front hrest herr

end Outline

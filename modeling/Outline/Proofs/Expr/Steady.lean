import Outline.Proofs.Expr.Sound

/-!
# How much the reader of expressions looks at

The reader never looks behind the end token, and the steps that it is given are enough: neither
more tokens at the back nor more steps change what it gives.

* `Level.rank`: the steps that a level needs on top of eight for each token;
* `Steady`: what the five readers give does not depend on what stands behind, nor on more steps;
* `steady`: it holds for every number of steps;
* `readTokens_append`, `readLevel_of_le`: the same for whole expressions.
-/

namespace Outline

variable {ts mid rest extra : List Token} {level : Level} {e : Expr} {s : Sign}

theorem frontToken_append (hended : Ended ts) (extra : List Token) :
    frontToken (ts ++ extra) = frontToken ts := by
  obtain _ | ⟨t, ts⟩ := ts
  · cases hended
  · rfl

theorem afterSign?_append (hended : Ended ts) (extra : List Token) :
    afterSign? s (ts ++ extra) = (afterSign? s ts).map (· ++ extra) := by
  obtain _ | ⟨t, ts⟩ := ts
  · cases hended
  · rw [List.cons_append, afterSign?, afterSign?]
    split <;> rfl

/-! ## Results with more behind them -/

/-- What a reader gives, with tokens behind those that are left. -/
def widened {α : Type} (extra : List Token) (r : Except ExprError (α × List Token)) :
    Except ExprError (α × List Token) := r.map fun p => (p.1, p.2 ++ extra)

theorem widened_bind {α β : Type} {r : Except ExprError (α × List Token)}
    {f g : α × List Token → Except ExprError (β × List Token)}
    (h : ∀ a mid, r = .ok (a, mid) → g (a, mid ++ extra) = widened extra (f (a, mid))) :
    (widened extra r >>= g) = widened extra (r >>= f) := by
  rcases r with err | ⟨a, mid⟩
  · rfl
  · exact h a mid rfl

/-- The steps that a level needs on top of eight for each token. -/
def Level.rank : Level → Nat
  | .or => 7
  | .and => 6
  | .not => 5
  | .comparison => 4
  | .sum => 3
  | .operand => 2

namespace Level

theorem rank_le_or (level : Level) : level.rank ≤ Level.or.rank := by cases level <;> decide

theorem rank_operand_le (level : Level) : Level.operand.rank ≤ level.rank := by
  cases level <;> decide

/-- The next level needs one step less. -/
theorem rank_next (hlevel : level ≠ .operand) : level.rank = level.next.rank + 1 := by
  cases level <;> first | rfl | exact absurd rfl hlevel

end Level

/-- With enough steps for its tokens, what a reader gives depends neither on further tokens behind
the end token nor on further steps. -/
structure Steady (n : Nat) : Prop where
  level : ∀ {level ts extra m}, Ended ts → 8 * ts.length + level.rank ≤ n → n ≤ m →
    readLevel m level (ts ++ extra) = widened extra (readLevel n level ts)
  more : ∀ {level a ts extra m}, Ended ts → 8 * ts.length + 1 ≤ n → n ≤ m →
    readMore m level a (ts ++ extra) = widened extra (readMore n level a ts)
  operand : ∀ {ts extra m}, Ended ts → 8 * ts.length + 1 ≤ n → n ≤ m →
    readOperand m (ts ++ extra) = widened extra (readOperand n ts)
  arguments : ∀ {ts extra m}, Ended ts → 8 * ts.length + 8 ≤ n → n ≤ m →
    readArguments m (ts ++ extra) = widened extra (readArguments n ts)
  further : ∀ {acc ts extra m}, Ended ts → 8 * ts.length + 1 ≤ n → n ≤ m →
    readFurther m acc (ts ++ extra) = widened extra (readFurther n acc ts)

namespace Steady

variable {n m : Nat}

theorem zero : Steady 0 where
  level {level _ _ _} _ h _ := by cases level <;> exact absurd h (by simp [Level.rank])
  more _ h _ := absurd h (by omega)
  operand _ h _ := absurd h (by omega)
  arguments _ h _ := absurd h (by omega)
  further _ h _ := absurd h (by omega)

theorem chain (ih : Steady n) (hop : level.operator?.isSome) (hended : Ended ts)
    (h : 8 * ts.length + level.rank ≤ n + 1) (hm : n ≤ m) :
    readLevel (m + 1) level (ts ++ extra) = widened extra (readLevel (n + 1) level ts) := by
  have hnext := Level.rank_next (level.ne_operand hop)
  rw [readLevel_of_operator m hop, readLevel_of_operator n hop, ih.level hended (by omega) hm]
  refine widened_bind fun a mid hread => ?_
  have := length_of_readLevel hread
  exact ih.more (hended.readLevel hread) (by omega) hm

theorem not (ih : Steady n) (hended : Ended ts) (h : 8 * ts.length + 5 ≤ n + 1) (hm : n ≤ m) :
    readLevel (m + 1) .not (ts ++ extra) = widened extra (readLevel (n + 1) .not ts) := by
  rw [readLevel, readLevel, afterSign?_append hended]
  cases hnot : afterSign? .not ts with
  | none => exact ih.level hended (by simp only [Level.rank]; omega) hm
  | some rest =>
    have := length_of_afterSign? hnot
    dsimp only [Option.map_some]
    rw [ih.level (hended.afterSign hnot) (by simp only [Level.rank]; omega) hm]
    exact widened_bind fun _ _ _ => rfl

theorem comparison (ih : Steady n) (hended : Ended ts) (h : 8 * ts.length + 4 ≤ n + 1)
    (hm : n ≤ m) :
    readLevel (m + 1) .comparison (ts ++ extra) =
      widened extra (readLevel (n + 1) .comparison ts) := by
  simp only [readLevel]
  rw [ih.level hended (by simp only [Level.rank]; omega) hm]
  refine widened_bind fun a mid hread => ?_
  have hmid : Ended mid := hended.readLevel hread
  have hlen := length_of_readLevel hread
  have hright : ∀ {s rest} (o : Operator), afterSign? s mid = some rest →
      (readLevel m .sum (rest ++ extra) >>= fun r => Except.ok (Expr.binary o a r.1, r.2)) =
        widened extra
          (readLevel n .sum rest >>= fun r => Except.ok (Expr.binary o a r.1, r.2)) := by
    intro s rest o hs
    have := length_of_afterSign? hs
    rw [ih.level (hmid.afterSign hs) (by simp only [Level.rank]; omega) hm]
    exact widened_bind fun _ _ _ => rfl
  dsimp only
  rw [afterSign?_append hmid, afterSign?_append hmid]
  cases heq : afterSign? .eq mid with
  | some rest => exact hright .eq heq
  | none =>
    cases hne : afterSign? .ne mid with
    | some rest => exact hright .ne hne
    | none => rfl

theorem readsMore (ih : Steady n) {a : Expr} (hended : Ended ts)
    (h : 8 * ts.length + 1 ≤ n + 1) (hm : n ≤ m) :
    readMore (m + 1) level a (ts ++ extra) = widened extra (readMore (n + 1) level a ts) := by
  rw [readMore, readMore]
  cases hop : level.operator? with
  | none => rfl
  | some so =>
    obtain ⟨s, o⟩ := so
    dsimp only
    rw [afterSign?_append hended]
    cases hs : afterSign? s ts with
    | none => rfl
    | some rest =>
      have hrest := hended.afterSign hs
      have := length_of_afterSign? hs
      have hrank : level.next.rank ≤ 7 := level.next.rank_le_or
      dsimp only [Option.map_some]
      rw [ih.level hrest (by omega) hm]
      refine widened_bind fun b mid hread => ?_
      have := length_of_readLevel hread
      exact ih.more (hrest.readLevel hread) (by omega) hm

theorem readsFurther (ih : Steady n) {acc : List Expr} (hended : Ended ts)
    (h : 8 * ts.length + 1 ≤ n + 1) (hm : n ≤ m) :
    readFurther (m + 1) acc (ts ++ extra) = widened extra (readFurther (n + 1) acc ts) := by
  rw [readFurther, readFurther, afterSign?_append hended]
  cases hcomma : afterSign? .comma ts with
  | some rest =>
    have hrest := hended.afterSign hcomma
    have := length_of_afterSign? hcomma
    dsimp only [Option.map_some]
    rw [ih.level hrest (by simp only [Level.rank]; omega) hm]
    refine widened_bind fun a mid hread => ?_
    have := length_of_readLevel hread
    exact ih.further (hrest.readLevel hread) (by omega) hm
  | none =>
    dsimp only [Option.map_none]
    rw [afterSign?_append hended]
    cases hclose : afterSign? .close ts with
    | some rest => rfl
    | none =>
      dsimp only [Option.map_none]
      rw [frontToken_append hended]
      rfl

theorem readsArguments (ih : Steady n) (hended : Ended ts) (h : 8 * ts.length + 8 ≤ n + 1)
    (hm : n ≤ m) :
    readArguments (m + 1) (ts ++ extra) = widened extra (readArguments (n + 1) ts) := by
  rw [readArguments, readArguments, afterSign?_append hended]
  cases hclose : afterSign? .close ts with
  | some rest => rfl
  | none =>
    dsimp only [Option.map_none]
    rw [ih.level hended (by simp only [Level.rank]; omega) hm]
    refine widened_bind fun a mid hread => ?_
    have := length_of_readLevel hread
    exact ih.further (hended.readLevel hread) (by omega) hm

theorem bracket (ih : Steady n) (hended : Ended ts) (h : 8 * ts.length + Level.or.rank ≤ n)
    (hm : n ≤ m) :
    (readLevel m .or (ts ++ extra) >>= fun r => match afterSign? .close r.2 with
      | some rest => Except.ok (r.1, rest)
      | none => .error (.expected .close (frontToken r.2))) =
    widened extra (readLevel n .or ts >>= fun r => match afterSign? .close r.2 with
      | some rest => Except.ok (r.1, rest)
      | none => .error (.expected .close (frontToken r.2))) := by
  rw [ih.level hended h hm]
  refine widened_bind fun a mid hread => ?_
  have hmid := hended.readLevel hread
  dsimp only
  rw [afterSign?_append hmid]
  cases afterSign? .close mid with
  | some rest => rfl
  | none =>
    dsimp only [Option.map_none]
    rw [frontToken_append hmid]
    rfl

theorem call (ih : Steady n) (f : Builtin) (hended : Ended ts) (h : 8 * ts.length + 8 ≤ n)
    (hm : n ≤ m) :
    (readArguments m (ts ++ extra) >>= fun r =>
      if r.1.length = f.arity then Except.ok (Expr.call f r.1, r.2)
      else .error (.arity f r.1.length)) =
    widened extra (readArguments n ts >>= fun r =>
      if r.1.length = f.arity then Except.ok (Expr.call f r.1, r.2)
      else .error (.arity f r.1.length)) := by
  rw [ih.arguments hended h hm]
  refine widened_bind fun args mid _ => ?_
  dsimp only
  split <;> rfl

theorem readsOperand (ih : Steady n) (hended : Ended ts) (h : 8 * ts.length + 1 ≤ n + 1)
    (hm : n ≤ m) :
    readOperand (m + 1) (ts ++ extra) = widened extra (readOperand (n + 1) ts) := by
  obtain _ | ⟨⟨lexeme, written, place⟩, ts⟩ := ts
  · cases hended
  have hlen : 8 * ts.length + 8 ≤ n := by
    rw [List.length_cons] at h
    omega
  have hrest : lexeme ≠ .stop → Ended ts := fun hne =>
    (List.mem_cons.1 hended).resolve_left (Ne.symm hne)
  cases lexeme with
  | literal l => rfl
  | stop => rfl
  | sign s =>
    cases s with
    | open_ => exact ih.bracket (hrest nofun) (by simp only [Level.rank]; omega) hm
    | _ => rfl
  | name name =>
    have hts : Ended ts := hrest nofun
    simp only [List.cons_append, readOperand]
    rw [afterSign?_append hts]
    cases hopen : afterSign? .open_ ts with
    | none => cases Variable.ofName? name <;> rfl
    | some rest =>
      cases hf : Builtin.ofName? name with
      | none => rfl
      | some f =>
        have := length_of_afterSign? hopen
        exact ih.call f (hts.afterSign hopen) (by omega) hm

/-- One more step: each reader is steady if the readers it calls are. -/
theorem succ (ih : Steady n) : Steady (n + 1) where
  level {level ts extra m} hended h hm := by
    obtain ⟨m, rfl⟩ := Nat.exists_eq_add_of_le' (Nat.one_le_of_lt hm)
    have hm := Nat.le_of_succ_le_succ hm
    cases level with
    | or => exact ih.chain rfl hended h hm
    | and => exact ih.chain rfl hended h hm
    | not => exact ih.not hended h hm
    | comparison => exact ih.comparison hended h hm
    | sum => exact ih.chain rfl hended h hm
    | operand => exact ih.operand hended (Nat.le_of_succ_le_succ h) hm
  more hended h hm := by
    obtain ⟨m, rfl⟩ := Nat.exists_eq_add_of_le' (Nat.one_le_of_lt hm)
    exact ih.readsMore hended h (Nat.le_of_succ_le_succ hm)
  operand hended h hm := by
    obtain ⟨m, rfl⟩ := Nat.exists_eq_add_of_le' (Nat.one_le_of_lt hm)
    exact ih.readsOperand hended h (Nat.le_of_succ_le_succ hm)
  arguments hended h hm := by
    obtain ⟨m, rfl⟩ := Nat.exists_eq_add_of_le' (Nat.one_le_of_lt hm)
    exact ih.readsArguments hended h (Nat.le_of_succ_le_succ hm)
  further hended h hm := by
    obtain ⟨m, rfl⟩ := Nat.exists_eq_add_of_le' (Nat.one_le_of_lt hm)
    exact ih.readsFurther hended h (Nat.le_of_succ_le_succ hm)

end Steady

/-- Every reader is steady, whatever the number of steps. -/
theorem steady (n : Nat) : Steady n := by
  induction n with
  | zero => exact .zero
  | succ n ih => exact ih.succ

/-! ## Whole expressions -/

theorem rank_or_le_readingFuel (ts : List Token) :
    8 * ts.length + Level.or.rank ≤ readingFuel ts := by
  simp only [Level.rank, readingFuel]
  omega

/-- **The steps are enough**: with more of them the reader gives the same. -/
theorem readLevel_of_le {n : Nat} (hended : Ended ts) (h : readingFuel ts ≤ n) :
    readLevel n .or ts = readLevel (readingFuel ts) .or ts := by
  have hsame : readLevel n .or (ts ++ []) = widened [] (readLevel (readingFuel ts) .or ts) :=
    (steady (readingFuel ts)).level hended (rank_or_le_readingFuel ts) h
  rw [List.append_nil] at hsame
  rw [hsame]
  rcases readLevel (readingFuel ts) .or ts with err | ⟨e, rest⟩
  · rfl
  · exact congrArg (fun us => Except.ok (e, us)) (List.append_nil rest)

/-- **The reader does not look behind an end token.** -/
theorem readTokens_append (hended : Ended ts) (extra : List Token) :
    readTokens (ts ++ extra) = readTokens ts := by
  have hfuel : readingFuel ts ≤ readingFuel (ts ++ extra) := by
    simp only [readingFuel, List.length_append]
    omega
  simp only [readTokens]
  rw [frontToken_append hended,
    (steady (readingFuel ts)).level hended (rank_or_le_readingFuel ts) hfuel]
  cases hread : readLevel (readingFuel ts) .or ts with
  | error err => rfl
  | ok r =>
    have hrest := hended.readLevel hread
    simp only [widened, Except.map, bind, Except.bind]
    rw [frontToken_append hrest]

end Outline

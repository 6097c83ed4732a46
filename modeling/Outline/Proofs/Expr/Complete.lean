import Outline.Proofs.Expr.Steady

/-!
# The reader of expressions reads what the grammar writes

Tokens that write a tree are read back as this tree, if what stands behind them does not go on with
it. Chains of an operator need a stronger statement on the way: the loop of their level is reached
with the tree of the chain, whatever sign stands behind it.

* `Settles`: what stands behind a tree does not go on with it;
* `ReadBack`, `Derives.readBack`: derived tokens are read back;
* `readTokens_eq_ok_iff`: exactly the derived tokens are read as whole expressions.
-/

namespace Outline

variable {ts us rest : List Token} {t : Token} {level : Level} {e : Expr} {s : Sign}
  {ls ms : List Lexeme}

/-! ## What stands in front -/

theorem lexemes_eq_append (h : lexemes ts = ls ++ ms) :
    ∃ as bs, ts = as ++ bs ∧ lexemes as = ls ∧ lexemes bs = ms := List.map_eq_append_iff.1 h

theorem lexemes_eq_cons {l : Lexeme} (h : lexemes ts = l :: ms) :
    ∃ t us, ts = t :: us ∧ t.lexeme = l ∧ lexemes us = ms := List.map_eq_cons_iff.1 h

theorem lexemes_eq_singleton {l : Lexeme} (h : lexemes ts = [l]) :
    ∃ t, ts = [t] ∧ t.lexeme = l := List.map_eq_singleton_iff.1 h

theorem afterSign?_cons (ht : t.lexeme = .sign s) : afterSign? s (t :: us) = some us :=
  if_pos ht

theorem afterSign?_eq_none (h : ∀ l ∈ (lexemes ts).head?, l ≠ .sign s) :
    afterSign? s ts = none := by
  obtain _ | ⟨t, ts⟩ := ts
  · rfl
  · exact if_neg (h t.lexeme rfl)

/-- A sign that no tree begins with does not stand in front of one. -/
theorem Phrase.afterSign? (h : Phrase ls) (hts : lexemes ts = ls)
    (hs : (Lexeme.sign s).opens = false) (rest : List Token) :
    afterSign? s (ts ++ rest) = none := by
  obtain ⟨a, ha, hopens⟩ := h.first
  refine afterSign?_eq_none fun l hl => ?_
  rw [lexemes_append, List.head?_append, hts, Option.mem_def.1 ha] at hl
  obtain rfl : a = l := Option.some.inj hl
  rintro rfl
  rw [hs] at hopens
  cases hopens

/-- The signs that go on with a tree that is read at a level. -/
def Level.goesOn : Level → List Sign
  | .operand => [.open_]
  | .sum => [.plus, .open_]
  | .comparison | .not => [.eq, .ne, .plus, .open_]
  | .and => [.and, .eq, .ne, .plus, .open_]
  | .or => [.or, .and, .eq, .ne, .plus, .open_]

/-- No sign in front goes on with a tree that is read at a level. -/
def Settles (level : Level) (ts : List Token) : Prop := ∀ s ∈ level.goesOn, afterSign? s ts = none

theorem Settles.next (h : Settles level ts) : Settles level.next ts := by
  have hsub : level.next.goesOn ⊆ level.goesOn := by cases level <;> decide
  exact fun s hs => h s (hsub hs)

theorem settles_of_sign (ht : t.lexeme = .sign s) (hs : s ∉ level.goesOn) :
    Settles level (t :: us) := by
  intro s' hs'
  refine if_neg fun heq => hs ?_
  rw [ht] at heq
  exact Lexeme.sign.inj heq ▸ hs'

theorem settles_of_stop (ht : t.lexeme = .stop) : Settles level (t :: us) := by
  intro s' _
  refine if_neg fun heq => ?_
  rw [ht] at heq
  cases heq

/-! ## Reading back -/

theorem exists_step {a k n : Nat} (h : a + (k + 1) ≤ n) : ∃ m, n = m + 1 ∧ a + k ≤ m :=
  ⟨n - 1, by omega, by omega⟩

/-- Tokens that are read back as a tree: on their own at a level, and at a level whose operator
repeats also as the left operand of what follows. -/
structure ReadBack (level : Level) (e : Expr) (ls : List Lexeme) : Prop where
  reads : ∀ {ts rest n}, lexemes ts = ls → Settles level rest →
    8 * (ts ++ rest).length + level.rank ≤ n → readLevel n level (ts ++ rest) = .ok (e, rest)
  loops : level.operator?.isSome → ∀ {ts rest n}, lexemes ts = ls → Settles level.next rest →
    8 * (ts ++ rest).length + level.rank ≤ n →
    ∃ m, 8 * rest.length + 1 ≤ m ∧ readLevel n level (ts ++ rest) = readMore m level e rest

namespace ReadBack

theorem of_loops (hop : level.operator?.isSome)
    (h : ∀ {ts rest n}, lexemes ts = ls → Settles level.next rest →
      8 * (ts ++ rest).length + level.rank ≤ n →
      ∃ m, 8 * rest.length + 1 ≤ m ∧ readLevel n level (ts ++ rest) = readMore m level e rest) :
    ReadBack level e ls where
  reads {ts rest n} hts hrest hn := by
    obtain ⟨m, hm, hread⟩ := h hts hrest.next hn
    obtain ⟨⟨s, o⟩, hso⟩ := Option.isSome_iff_exists.1 hop
    have hs : s ∈ level.goesOn := by
      cases level <;> cases hso <;> decide
    obtain ⟨m, rfl, -⟩ := exists_step hm
    rw [hread, readMore, hso]
    dsimp only
    rw [hrest s hs]
  loops _ := h

theorem operand (h : ∀ {ts rest n}, lexemes ts = ls → Settles .operand rest →
    8 * (ts ++ rest).length ≤ n → readOperand (n + 1) (ts ++ rest) = .ok (e, rest)) :
    ReadBack .operand e ls where
  reads {ts rest n} hts hrest hn := by
    obtain ⟨n, rfl, hsteps⟩ := exists_step hn
    obtain ⟨n, rfl, hfewer⟩ := exists_step hsteps
    exact h hts hrest hfewer
  loops hop := nomatch hop

theorem lit (l : Literal) : ReadBack .operand (.lit l) [.literal l] := by
  refine operand fun {ts rest n} hts _ _ => ?_
  obtain ⟨t, rfl, ht⟩ := lexemes_eq_singleton hts
  simp [readOperand, ht]

end ReadBack

theorem Variable.ofName?_name (v : Variable) : Variable.ofName? v.name = some v := by
  cases v <;> decide

theorem Builtin.ofName?_name (f : Builtin) : Builtin.ofName? f.name = some f := by
  cases f <;> decide

namespace ReadBack

theorem var (v : Variable) : ReadBack .operand (.var v) [.name v.name] := by
  refine operand fun {ts rest n} hts hrest _ => ?_
  obtain ⟨t, rfl, ht⟩ := lexemes_eq_singleton hts
  have hopen : afterSign? .open_ rest = none := hrest .open_ (by decide)
  simp [readOperand, ht, hopen, Variable.ofName?_name]

theorem group (h : ReadBack .or e ls) :
    ReadBack .operand e (.sign .open_ :: (ls ++ [.sign .close])) := by
  refine operand fun {ts rest n} hts _ hn => ?_
  obtain ⟨t, us, rfl, ht, hus⟩ := lexemes_eq_cons hts
  obtain ⟨body, close, rfl, hbody, hclose⟩ := lexemes_eq_append hus
  obtain ⟨c, rfl, hc⟩ := lexemes_eq_singleton hclose
  have hread : readLevel n .or (body ++ c :: rest) = .ok (e, c :: rest) := by
    refine h.reads hbody (settles_of_sign hc (by decide)) ?_
    simp only [List.cons_append, List.append_assoc, List.length_cons, Level.rank] at hn ⊢
    simp only [List.nil_append] at hn
    omega
  simp only [List.cons_append, List.append_assoc, List.nil_append, readOperand, ht]
  rw [hread]
  simp [bind, Except.bind, afterSign?_cons hc, pure, Except.pure]

theorem not (h : ReadBack .not e ls) : ReadBack .not (.not e) (.sign .not :: ls) where
  reads {ts rest n} hts hrest hn := by
    obtain ⟨t, us, rfl, ht, hus⟩ := lexemes_eq_cons hts
    obtain ⟨n, rfl, hsteps⟩ := exists_step hn
    have hread : readLevel n .not (us ++ rest) = .ok (e, rest) := by
      refine h.reads hus hrest ?_
      simp only [List.cons_append, List.length_cons, Level.rank] at hn ⊢
      omega
    rw [List.cons_append, readLevel, afterSign?_cons ht]
    dsimp only
    rw [hread]
    rfl
  loops hop := nomatch hop

theorem comparison {a b : Expr} {o : Operator} (hs : s.comparison? = some o)
    (ha : ReadBack .sum a ls) (hb : ReadBack .sum b ms) :
    ReadBack .comparison (.binary o a b) (ls ++ .sign s :: ms) where
  reads {ts rest n} hts hrest hn := by
    obtain ⟨as, us, rfl, has, hus⟩ := lexemes_eq_append hts
    obtain ⟨t, bs, rfl, ht, hbs⟩ := lexemes_eq_cons hus
    obtain ⟨n, rfl, hsteps⟩ := exists_step hn
    simp only [List.append_assoc, List.cons_append] at hsteps ⊢
    have hleft : readLevel n .sum (as ++ t :: (bs ++ rest)) = .ok (a, t :: (bs ++ rest)) := by
      refine ha.reads has (settles_of_sign ht ?_) hsteps
      cases s <;> first | cases hs; done | decide
    have hright : readLevel n .sum (bs ++ rest) = .ok (b, rest) := by
      refine hb.reads hbs hrest.next ?_
      simp only [List.length_append, List.length_cons, Level.rank] at hsteps ⊢
      omega
    simp only [readLevel]
    rw [hleft]
    cases s <;> first | cases hs; done | skip
    · obtain rfl : Operator.eq = o := Option.some.inj hs
      simp [bind, Except.bind, pure, Except.pure, afterSign?_cons ht, hright]
    · have heq : afterSign? .eq (t :: (bs ++ rest)) = none := if_neg (by simp [ht])
      obtain rfl : Operator.ne = o := Option.some.inj hs
      simp [bind, Except.bind, pure, Except.pure, afterSign?_cons ht, heq, hright]
  loops hop := nomatch hop

theorem chain {a b : Expr} {o : Operator} (hso : level.operator? = some (s, o))
    (ha : ReadBack level a ls) (hb : ReadBack level.next b ms) :
    ReadBack level (.binary o a b) (ls ++ .sign s :: ms) := by
  have hop : level.operator?.isSome := hso ▸ rfl
  refine of_loops hop fun {ts rest n} hts hrest hn => ?_
  obtain ⟨as, us, rfl, has, hus⟩ := lexemes_eq_append hts
  obtain ⟨t, bs, rfl, ht, hbs⟩ := lexemes_eq_cons hus
  simp only [List.append_assoc, List.cons_append] at hn ⊢
  have hsettles : Settles level.next (t :: (bs ++ rest)) := by
    refine settles_of_sign ht ?_
    cases level <;> cases hso <;> decide
  -- the loop is reached with the left operand; one turn takes the sign and the right operand
  obtain ⟨m, hm, hread⟩ := ha.loops hop has hsettles hn
  rw [List.length_cons] at hm
  obtain ⟨m, rfl, hm⟩ := exists_step hm
  have hright : readLevel m level.next (bs ++ rest) = .ok (b, rest) := by
    refine hb.reads hbs hrest ?_
    have hrank : level.next.rank ≤ 7 := level.next.rank_le_or
    omega
  refine ⟨m, ?_, ?_⟩
  · rw [List.length_append] at hm
    omega
  · rw [hread, readMore, hso]
    dsimp only
    rw [afterSign?_cons ht]
    dsimp only
    rw [hright]
    rfl

theorem tighter_loops (hop : level.operator?.isSome) (h : ReadBack level.next e ls) :
    ReadBack level e ls := by
  refine of_loops hop fun {ts rest n} hts hrest hn => ?_
  rw [Level.rank_next (level.ne_operand hop)] at hn
  obtain ⟨n, rfl, hsteps⟩ := exists_step hn
  have hread := h.reads hts hrest hsteps
  refine ⟨n, ?_, ?_⟩
  · have hpos : 2 ≤ level.next.rank := level.next.rank_operand_le
    rw [List.length_append] at hsteps
    omega
  · rw [readLevel_of_operator n hop, hread]
    rfl

theorem tighter_comparison (h : ReadBack .sum e ls) : ReadBack .comparison e ls where
  reads {ts rest n} hts hrest hn := by
    obtain ⟨n, rfl, hsteps⟩ := exists_step hn
    have hread := h.reads hts hrest.next hsteps
    have heq : afterSign? .eq rest = none := hrest .eq (by decide)
    have hne : afterSign? .ne rest = none := hrest .ne (by decide)
    simp only [readLevel]
    rw [hread]
    simp [bind, Except.bind, pure, Except.pure, heq, hne]
  loops hop := nomatch hop

theorem tighter_not (hls : ls.head? ≠ some (.sign .not)) (hsome : ls ≠ [])
    (h : ReadBack .comparison e ls) : ReadBack .not e ls where
  reads {ts rest n} hts hrest hn := by
    obtain ⟨n, rfl, hsteps⟩ := exists_step hn
    have hnot : afterSign? .not (ts ++ rest) = none := by
      refine afterSign?_eq_none fun l hl => ?_
      rintro rfl
      refine hls ?_
      rw [lexemes_append, hts, List.head?_append_of_ne_nil _ hsome] at hl
      exact hl
    rw [readLevel, hnot]
    exact h.reads hts hrest.next hsteps
  loops hop := nomatch hop

end ReadBack

/-! ## Arguments -/

theorem settles_of_further {pieces : List (List Lexeme)}
    (hts : lexemes ts = pieces.flatMap (.sign .comma :: ·) ++ [.sign .close])
    (rest : List Token) : Settles .or (ts ++ rest) := by
  cases pieces with
  | nil =>
    obtain ⟨t, us, rfl, ht, -⟩ := lexemes_eq_cons hts
    exact settles_of_sign ht (by decide)
  | cons p ps =>
    obtain ⟨t, us, rfl, ht, -⟩ := lexemes_eq_cons hts
    exact settles_of_sign ht (by decide)

theorem readFurther_eq_ok {parts : List (Expr × List Lexeme)}
    (h : ∀ p ∈ parts, ReadBack .or p.1 p.2) (rest : List Token) :
    ∀ {acc : List Expr} {ts : List Token} {n : Nat},
      lexemes ts = (parts.map Prod.snd).flatMap (.sign .comma :: ·) ++ [.sign .close] →
      8 * (ts ++ rest).length + 1 ≤ n →
      readFurther n acc (ts ++ rest) = .ok (acc ++ parts.map Prod.fst, rest) := by
  induction parts with
  | nil =>
    intro acc ts n hts hn
    obtain ⟨t, rfl, ht⟩ := lexemes_eq_singleton hts
    obtain ⟨n, rfl, -⟩ := exists_step hn
    have hcomma : afterSign? .comma (t :: rest) = none := if_neg (by simp [ht])
    simp [readFurther, hcomma, afterSign?_cons ht]
  | cons p ps ih =>
    intro acc ts n hts hn
    rw [List.map_cons, List.flatMap_cons, List.append_assoc, List.cons_append] at hts
    obtain ⟨t, us, rfl, ht, hus⟩ := lexemes_eq_cons hts
    obtain ⟨as, bs, rfl, has, hbs⟩ := lexemes_eq_append hus
    obtain ⟨n, rfl, hsteps⟩ := exists_step hn
    simp only [List.cons_append, List.append_assoc, List.length_cons] at hn ⊢
    have hfirst : readLevel n .or (as ++ (bs ++ rest)) = .ok (p.1, bs ++ rest) := by
      refine (h p List.mem_cons_self).reads has (settles_of_further hbs rest) ?_
      simp only [Level.rank]
      omega
    have hmore : readFurther n (acc ++ [p.1]) (bs ++ rest) =
        .ok (acc ++ [p.1] ++ ps.map Prod.fst, rest) := by
      refine ih (fun q hq => h q (List.mem_cons_of_mem p hq)) hbs ?_
      rw [List.length_append] at hn
      omega
    rw [readFurther, afterSign?_cons ht]
    dsimp only
    rw [hfirst]
    simpa [bind, Except.bind] using hmore

theorem ReadBack.call (f : Builtin) {args : List (Expr × List Lexeme)}
    (harity : args.length = f.arity) (hphrase : ∀ arg ∈ args, Phrase arg.2)
    (h : ∀ arg ∈ args, ReadBack .or arg.1 arg.2) :
    ReadBack .operand (.call f (args.map Prod.fst))
      (.name f.name :: .sign .open_ :: (separated (args.map Prod.snd) ++ [.sign .close])) := by
  refine operand fun {ts rest n} hts _ hn => ?_
  obtain ⟨t, us, rfl, ht, hus⟩ := lexemes_eq_cons hts
  obtain ⟨u, vs, rfl, hu, hvs⟩ := lexemes_eq_cons hus
  obtain _ | ⟨p, ps⟩ := args
  · exact absurd harity.symm (Nat.ne_of_gt f.arity_pos)
  rw [List.map_cons, separated, List.append_assoc] at hvs
  obtain ⟨as, bs, rfl, has, hbs⟩ := lexemes_eq_append hvs
  simp only [List.cons_append, List.append_assoc, List.length_cons] at hn ⊢
  obtain ⟨n, rfl, hn⟩ : ∃ m, n = m + 1 ∧ 8 * (as ++ (bs ++ rest)).length + 8 ≤ m :=
    ⟨n - 1, by omega, by omega⟩
  have hfirst : readLevel n .or (as ++ (bs ++ rest)) = .ok (p.1, bs ++ rest) := by
    refine (h p List.mem_cons_self).reads has (settles_of_further hbs rest) ?_
    simp only [Level.rank]
    omega
  have hmore : readFurther n [p.1] (bs ++ rest) = .ok ([p.1] ++ ps.map Prod.fst, rest) :=
    readFurther_eq_ok (fun q hq => h q (List.mem_cons_of_mem p hq)) rest hbs
      (by rw [List.length_append] at hn; omega)
  have hclose : afterSign? .close (as ++ (bs ++ rest)) = none :=
    (hphrase p List.mem_cons_self).afterSign? has rfl (bs ++ rest)
  have hargs : readArguments (n + 1) (as ++ (bs ++ rest)) =
      .ok ([p.1] ++ ps.map Prod.fst, rest) := by
    rw [readArguments, hclose]
    dsimp only
    rw [hfirst]
    exact hmore
  simp only [readOperand, ht, afterSign?_cons hu, Builtin.ofName?_name]
  rw [hargs]
  have hlength : ([p.1] ++ ps.map Prod.fst).length = f.arity := by
    rw [List.length_append, List.length_map, ← harity, List.length_cons]
    exact Nat.add_comm 1 ps.length
  exact if_pos hlength

/-! ## Whole expressions -/

/-- Only a negation begins with the sign of one. -/
theorem Derives.head_ne_not (h : Derives level e ls) (hlevel : level.rank ≤ Level.comparison.rank) :
    ls.head? ≠ some (.sign .not) := by
  have hleft : ∀ {ls ms : List Lexeme}, ls ≠ [] → ls.head? ≠ some (.sign .not) →
      (ls ++ ms).head? ≠ some (.sign .not) := by
    intro ls ms hsome hne
    rwa [List.head?_append_of_ne_nil _ hsome]
  induction h with
  | lit | var | call | group => simp
  | not => exact absurd hlevel (by decide)
  | comparison _ ha _ iha _ => exact hleft ha.phrase.ne_nil (iha (by decide))
  | chain _ ha _ iha _ => exact hleft ha.phrase.ne_nil (iha hlevel)
  | @tighter level _ _ _ _ ih =>
    refine ih (le_trans ?_ hlevel)
    cases level <;> decide

/-- **What the grammar writes is read back.** -/
theorem Derives.readBack (h : Derives level e ls) : ReadBack level e ls := by
  induction h with
  | lit l => exact .lit l
  | var v => exact .var v
  | call f args harity h ih => exact .call f harity (fun arg harg => (h arg harg).phrase) ih
  | group _ ih => exact ih.group
  | not _ ih => exact ih.not
  | comparison hs _ _ iha ihb => exact iha.comparison hs ihb
  | chain hs _ _ iha ihb => exact iha.chain hs ihb
  | @tighter level _ _ hlevel h ih =>
    cases level with
    | or => exact .tighter_loops rfl ih
    | and => exact .tighter_loops rfl ih
    | not => exact .tighter_not (h.head_ne_not le_rfl) h.phrase.ne_nil ih
    | comparison => exact ih.tighter_comparison
    | sum => exact .tighter_loops rfl ih
    | operand => exact absurd rfl hlevel

/-- **The reader accepts exactly what the grammar writes**, up to the end token. -/
theorem readTokens_eq_ok_iff {body : List Token} (ht : t.lexeme = .stop)
    (hbody : .stop ∉ lexemes body) :
    readTokens (body ++ [t]) = .ok e ↔ Derives .or e (lexemes body) := by
  constructor
  · intro h
    rw [readTokens] at h
    split at h
    · cases h
    · obtain ⟨⟨a, rest⟩, hread, h⟩ := bind_eq_ok.1 h
      dsimp only at h
      split at h
      · rename_i hstop
        obtain rfl : a = e := Except.ok.inj h
        obtain ⟨taken, htaken, hderives⟩ := derives_of_readLevel hread
        rcases List.append_eq_append_iff.1 htaken with ⟨more, rfl, hmore⟩ | ⟨more, rfl, rfl⟩
        · obtain _ | ⟨u, us⟩ := more
          · rwa [List.append_nil] at hderives
          · -- the end token itself would have been taken
            obtain rfl : t = u := (List.cons.inj hmore).1
            refine absurd ?_ hderives.phrase.noStop
            rw [lexemes_append]
            exact List.mem_append_right _ (ht ▸ List.mem_cons_self)
        · obtain _ | ⟨u, us⟩ := more
          · rwa [List.append_nil]
          · -- an end token would stand among the others
            refine absurd ?_ hbody
            rw [lexemes_append]
            exact List.mem_append_right _ (List.mem_cons.2 (.inl hstop.symm))
      · cases h
  · intro h
    have hread : readLevel (readingFuel (body ++ [t])) .or (body ++ [t]) = .ok (e, [t]) :=
      h.readBack.reads rfl (settles_of_stop ht) (rank_or_le_readingFuel _)
    have hfirst : (frontToken (body ++ [t])).lexeme ≠ .stop := by
      obtain _ | ⟨u, us⟩ := body
      · exact absurd rfl h.phrase.ne_nil
      · exact fun hstop => hbody (List.mem_cons.2 (.inl hstop.symm))
    rw [readTokens, if_neg hfirst]
    show (readLevel _ .or _ >>= _) = _
    rw [hread]
    exact if_pos ht

end Outline

import Outline.Proofs.Regex.Row

/-!
# Patterns that open with switches

Switches for a whole pattern, such as `(?i)`, may stand at its start, behind notes such as
`(?#this)` or not (`Opens`). **They are malformed behind another part** (`fails_readRow_of_opens`); a row that
does not open with them **is read in the same way wherever it stands** (`run_readRow_of_not_opens`).

* `Opens`: what opens with switches;
* `readExtension`, `readSwitches`: what a bracket with a question mark opens on;
* `Gives`, `Fails`: readers with results of a kind, and those that come to a malformed part.
-/

namespace Outline.Regex

/-- Tokens that open with switches for the whole pattern, behind notes in brackets or not. -/
inductive Opens : List Tok → Prop
  | switches {letters : List Char} {rest : List Tok} (hne : letters ≠ [])
      (hflags : ∀ c ∈ letters, isFlag c = true) :
      Opens (.plain '(' :: .plain '?' :: letters.map .plain ++ .plain ')' :: rest)
  | note {body rest : List Tok} (hbody : .plain ')' ∉ body) (h : Opens rest) :
      Opens (.plain '(' :: .plain '?' :: .plain '#' :: body ++ .plain ')' :: rest)

section

variable {α β : Type} {s t u v : Reading} {fuel start : Nat}

/-! ## What is read as switches -/

theorem run_skipNote_eq_ok (fuel : Nat) : ∀ {s : Reading}, s.rest.length < fuel →
    (skipNote start fuel).run s = .ok ((), t) →
    ∃ body, .plain ')' ∉ body ∧ s.rest = body ++ .plain ')' :: t.rest := by
  induction fuel with
  | zero => intro s hfuel; omega
  | succ fuel ih =>
    intro s hfuel hrun
    rw [skipNote, run_peek_bind] at hrun
    cases hs : s.rest with
    | nil =>
      rw [hs] at hrun
      cases hrun
    | cons tok rest =>
      rw [hs, List.head?_cons] at hrun
      dsimp only [Option.isNone_some] at hrun
      rw [if_neg Bool.false_ne_true, StateT.run_bind] at hrun
      obtain ⟨⟨o, u⟩, hnext, hrun⟩ := bind_eq_ok.1 hrun
      obtain ⟨hnil, -⟩ | ⟨tok', rfl, hu⟩ := run_next_eq_ok hnext
      · rw [hs] at hnil
        cases hnil
      rw [← hs, hu]
      dsimp only at hrun
      split_ifs at hrun with htok
      · obtain ⟨-, rfl⟩ := Prod.mk.inj (Except.ok.inj hrun)
        refine ⟨[], List.not_mem_nil, ?_⟩
        rw [Option.some.inj htok]
        rfl
      · have hlength := congrArg List.length hu
        rw [List.length_cons] at hlength
        obtain ⟨body, hbody, hrest⟩ := ih (by omega) hrun
        refine ⟨tok' :: body, ?_, congrArg (tok' :: ·) hrest⟩
        rw [List.mem_cons, not_or]
        exact ⟨fun h => htok (congrArg some h.symm), hbody⟩

theorem run_flagsOn_eq_ok (fuel : Nat) : ∀ {c : Char} {acc on : List Char} {s : Reading},
    s.rest.length < fuel → (flagsOn fuel c acc).run s = .ok ((on, ')'), t) →
    ∃ letters : List Char, (∀ c ∈ letters, isFlag c = true) ∧
      s.rest = letters.map .plain ++ .plain ')' :: t.rest := by
  induction fuel with
  | zero => intro c acc on s hfuel; omega
  | succ fuel ih =>
    intro c acc on s hfuel hrun
    unfold flagsOn at hrun
    extract_lets acc' missing rest kinds at hrun
    have hrest : (rest ()).run s = .ok ((on, ')'), t) → ∃ letters : List Char,
        (∀ c ∈ letters, isFlag c = true) ∧ s.rest = letters.map .plain ++ .plain ')' :: t.rest := by
      intro hrun
      rw [StateT.run_bind] at hrun
      obtain ⟨⟨o, u⟩, hnext, hrun⟩ := bind_eq_ok.1 hrun
      obtain ⟨-, rfl, -⟩ | ⟨tok, rfl, hu⟩ := run_next_eq_ok hnext
      · cases hrun
      cases tok with
      | plain d =>
        have hlength := congrArg List.length hu
        rw [List.length_cons] at hlength
        dsimp only at hrun
        split_ifs at hrun with hends hflag
        · obtain ⟨hon, rfl⟩ := Prod.mk.inj (Except.ok.inj hrun)
          obtain ⟨-, rfl⟩ := Prod.mk.inj hon
          exact ⟨[], List.forall_mem_nil _, hu⟩
        · obtain ⟨letters, hletters, hrest⟩ := ih (by omega) hrun
          refine ⟨d :: letters, List.forall_mem_cons.2 ⟨hflag, hletters⟩, ?_⟩
          rw [hu, hrest]
          rfl
        · cases hrun
      | escape d => cases hrun
      | dangling => cases hrun
    dsimp only [kinds] at hrun
    split_ifs at hrun
    · cases hrun
    · cases hrun
    · cases hrun
    · exact hrest hrun

/-- Reading that gives only results of a kind. -/
def Gives (q : α → Prop) (m : Reader α) : Prop := ∀ s a t, m.run s = .ok (a, t) → q a

theorem Gives.pure {q : α → Prop} {a : α} (h : q a) : Gives q (pure a) := by
  rintro s b t hrun
  obtain ⟨rfl, -⟩ := Prod.mk.inj (Except.ok.inj hrun)
  exact h

theorem Gives.bind {q : β → Prop} {m : Reader α} {f : α → Reader β} (h : ∀ a, Gives q (f a)) :
    Gives q (m >>= f) := by
  intro s b t hrun
  rw [StateT.run_bind] at hrun
  obtain ⟨⟨a, u⟩, -, hrun⟩ := bind_eq_ok.1 hrun
  exact h a u b t hrun

theorem Gives.fail {q : α → Prop} {what : String} {back : Nat} : Gives q (failAt what back) := by
  rintro s a t ⟨⟩

theorem gives_turnedOff {on : List Char} {close : Char} :
    Gives (· ≠ none) (turnedOff fuel on close) := by
  unfold turnedOff
  extract_lets found off
  have hfound : ∀ cs, Gives (· ≠ none) (found cs) := by
    intro cs
    dsimp only [found]
    split_ifs
    · exact .bind fun _ => .bind fun _ => .pure nofun
    · exact .bind fun _ => .pure nofun
    · exact .bind fun _ => .pure nofun
    · exact .pure nofun
  have hoff : Gives (· ≠ none) (off ()) := by
    dsimp only [off]
    split_ifs
    · refine .bind fun o => ?_
      split
      · exact .bind hfound
      · split
        · split_ifs
          · exact .bind hfound
          · exact .bind hfound
        · exact .bind hfound
    · exact hfound []
  split_ifs
  · exact .bind fun _ => hoff
  · exact hoff

/-- Switches for the whole pattern are letters up to a closing bracket. -/
theorem run_readFlags_eq_none {c : Char} (hrun : (readFlags c).run s = .ok (none, t)) :
    c ≠ '-' ∧ ∃ letters : List Char, (∀ c ∈ letters, isFlag c = true) ∧
      s.rest = letters.map .plain ++ .plain ')' :: t.rest := by
  rw [readFlags_eq, StateT.run_bind, StateT.run_get, pure_bind] at hrun
  extract_lets fuel choose at hrun
  have hchoose : ∀ {on close u}, (choose (on, close)).run u = .ok (none, t) →
      close = ')' ∧ t.rest = u.rest := by
    intro on close u hrun
    dsimp only [choose] at hrun
    split_ifs at hrun with hclose
    · obtain ⟨-, rfl⟩ := Prod.mk.inj (Except.ok.inj hrun)
      exact ⟨eq_of_beq hclose, rfl⟩
    · exact absurd rfl (gives_turnedOff _ _ _ hrun)
  split_ifs at hrun with hminus
  · rw [pure_bind] at hrun
    obtain ⟨hclose, -⟩ := hchoose hrun
    cases hclose
  · rw [StateT.run_bind] at hrun
    obtain ⟨⟨⟨on, close⟩, u⟩, hflags, hrun⟩ := bind_eq_ok.1 hrun
    obtain ⟨rfl, hrest⟩ := hchoose hrun
    obtain ⟨letters, hletters, hs⟩ := run_flagsOn_eq_ok fuel (by dsimp only [fuel]; omega) hflags
    exact ⟨fun hc => hminus (beq_iff_eq.2 hc), letters, hletters, hrest ▸ hs⟩

/-! ## Brackets at the start -/

/-- Reads on behind a question mark and the character after it, which may be a switch. -/
def readSwitches (start : Nat) (alone : Bool) (c : Char) : Reader Opened := do
  if isFlag c || c == '-' then
    match ← readFlags c with
    | none =>
      let back := (← get).place - start
      if !alone then failAt "global flags not at the start of the expression" back
      return .nothing
    | some (on, off) => return .flags on off
  else failAt ("unknown extension ?" ++ String.ofList [c]) 2

/-- Reads on behind a question mark and the token after it. -/
def readExtension (start : Nat) (alone : Bool) : Tok → Reader Opened
  | .plain 'P' => do
    if ← accept '<' then
      let name ← readName '>' "group name"
      checkName name
      return .capture (some name)
    else if ← accept '=' then
      let name ← readName ')' "group name"
      checkName name
      match (← get).names.lookup (String.ofList name) with
      | none =>
        failAt ("unknown group name " ++ shown (String.ofList name)) (name.length + 1)
      | some g =>
        if !(← isClosed g) then failAt "cannot refer to an open group" (name.length + 1)
        checkBehind g
        return .node (.again g)
    else
      match ← next with
      | none => failAt "unexpected end of pattern"
      | some u => failAt ("unknown extension ?P" ++ String.ofList u.chars) (u.size + 2)
  | .plain ':' => return .bare
  | .plain '#' => do
    skipNote start ((← get).rest.length + 1)
    return .nothing
  | .plain '=' => return .look true false none
  | .plain '!' => return .look true true none
  | .plain '<' => do
    match ← next with
    | none => failAt "unexpected end of pattern"
    | some u =>
      let negated := u = .plain '!'
      if negated || u = .plain '=' then
        let s ← get
        if s.behindFrom.isNone then set { s with behindFrom := some (s.widths.length + 1) }
        return .look false negated s.behindFrom
      else failAt ("unknown extension ?<" ++ String.ofList u.chars) (u.size + 2)
  | .plain '(' => return .condition (← readCondition)
  | .plain '>' => return .atomic
  | .plain c => readSwitches start alone c
  | other => failAt ("unknown extension ?" ++ String.ofList other.chars) (other.size + 1)

theorem readOpening_eq (start : Nat) (alone : Bool) : readOpening start alone = (do
    if !(← accept '?') then return .capture none
    match ← next with
    | none => failAt "unexpected end of pattern"
    | some tok => readExtension start alone tok) := rfl

theorem run_readExtension_alone {tok : Tok} {opened : Opened}
    (hrun : (readExtension start true tok).run s = .ok (opened, t)) :
    ((readExtension start false tok).run s = .ok (opened, t) ∧ (opened = .nothing →
      tok = .plain '#' ∧ ∃ body, .plain ')' ∉ body ∧ s.rest = body ++ .plain ')' :: t.rest)) ∨
    ∃ c, tok = .plain c ∧ isFlag c = true ∧ ∃ letters : List Char,
      (∀ c ∈ letters, isFlag c = true) ∧ s.rest = letters.map .plain ++ .plain ')' :: t.rest := by
  have hother : Gives (· ≠ .nothing) (readExtension start true tok) →
      opened = .nothing → tok = .plain '#' ∧ ∃ body, .plain ')' ∉ body ∧
        s.rest = body ++ .plain ')' :: t.rest :=
    fun hgives h => absurd h (hgives _ _ _ hrun)
  unfold readExtension at hrun hother
  split at hrun
  · refine .inl ⟨hrun, hother (.bind fun names => ?_)⟩
    split_ifs
    · exact .bind fun _ => .bind fun _ => .pure nofun
    refine .bind fun again => ?_
    split_ifs
    · refine .bind fun name => .bind fun _ => .bind fun u => ?_
      split
      · exact .fail
      · refine .bind fun closed => ?_
        dsimp only
        split_ifs
        · exact .bind fun _ => .bind fun _ => .pure nofun
        · exact .bind fun _ => .pure nofun
    · refine .bind fun o => ?_
      split
      · exact .fail
      · exact .fail
  · exact .inl ⟨hrun, hother (.pure nofun)⟩
  · refine .inl ⟨hrun, fun _ => ⟨rfl, ?_⟩⟩
    rw [StateT.run_bind, StateT.run_get, pure_bind, StateT.run_bind] at hrun
    obtain ⟨⟨x, u⟩, hskip, hrun⟩ := bind_eq_ok.1 hrun
    obtain ⟨-, rfl⟩ := Prod.mk.inj (Except.ok.inj hrun)
    exact run_skipNote_eq_ok _ (Nat.lt_succ_self _) hskip
  · exact .inl ⟨hrun, hother (.pure nofun)⟩
  · exact .inl ⟨hrun, hother (.pure nofun)⟩
  · refine .inl ⟨hrun, hother (.bind fun o => ?_)⟩
    split
    · exact .fail
    · dsimp only
      split_ifs
      · refine .bind fun u => ?_
        split_ifs
        · exact .bind fun _ => .pure nofun
        · exact .pure nofun
      · exact .fail
  · exact .inl ⟨hrun, hother (.bind fun g => .pure nofun)⟩
  · exact .inl ⟨hrun, hother (.pure nofun)⟩
  · rename_i c _ _ _ _ _ _ _ _
    have hfalse : readExtension start false (.plain c) = readSwitches start false c := by
      rw [readExtension]
      all_goals assumption
    rw [hfalse]
    unfold readSwitches at hrun ⊢
    by_cases hflag : (isFlag c || c == '-') = true
    · rw [if_pos hflag, StateT.run_bind] at hrun ⊢
      obtain ⟨⟨onOff?, u⟩, hflags, hrun⟩ := bind_eq_ok.1 hrun
      rw [hflags, ok_bind]
      cases onOff? with
      | none =>
        obtain ⟨hminus, letters, hletters, hs⟩ := run_readFlags_eq_none hflags
        obtain ⟨-, rfl⟩ := Prod.mk.inj (Except.ok.inj hrun)
        refine .inr ⟨c, rfl, ?_, letters, hletters, hs⟩
        exact (Bool.or_eq_true_iff.1 hflag).resolve_right (mt eq_of_beq hminus)
      | some onOff =>
        refine .inl ⟨hrun, ?_⟩
        obtain ⟨rfl, -⟩ := Prod.mk.inj (Except.ok.inj hrun)
        exact nofun
    · rw [if_neg hflag] at hrun
      cases hrun
  · cases hrun

/-- What a bracket at the start of a pattern opens on, it opens on anywhere, unless it holds
switches for the whole pattern; nothing else than a note is left out. -/
theorem run_readOpening_alone {opened : Opened}
    (hrun : (readOpening start true).run s = .ok (opened, t)) :
    ((readOpening start false).run s = .ok (opened, t) ∧ (opened = .nothing →
      ∃ body, .plain ')' ∉ body ∧
        s.rest = .plain '?' :: .plain '#' :: body ++ .plain ')' :: t.rest)) ∨
    ∃ letters : List Char, letters ≠ [] ∧ (∀ c ∈ letters, isFlag c = true) ∧
      s.rest = .plain '?' :: letters.map .plain ++ .plain ')' :: t.rest := by
  rw [readOpening_eq, StateT.run_bind] at hrun ⊢
  obtain ⟨⟨asks, u⟩, haccept, hrun⟩ := bind_eq_ok.1 hrun
  rw [haccept, ok_bind]
  cases asks with
  | false =>
    refine .inl ⟨hrun, ?_⟩
    obtain ⟨rfl, -⟩ := Prod.mk.inj (Except.ok.inj hrun)
    exact nofun
  | true =>
    have hs : s.rest = .plain '?' :: u.rest := run_accept_eq_ok haccept
    simp only [Bool.not_true, Bool.false_eq_true, if_false, StateT.run_bind] at hrun ⊢
    obtain ⟨⟨o, v⟩, hnext, hrun⟩ := bind_eq_ok.1 hrun
    rw [hnext, ok_bind]
    obtain ⟨-, rfl, -⟩ | ⟨tok, rfl, hu⟩ := run_next_eq_ok hnext
    · cases hrun
    rw [hs, hu]
    obtain ⟨hsame, hnote⟩ | ⟨c, rfl, hc, letters, hletters, hv⟩ := run_readExtension_alone hrun
    · refine .inl ⟨hsame, fun h => ?_⟩
      obtain ⟨rfl, body, hbody, hv⟩ := hnote h
      exact ⟨body, hbody, by rw [hv]; rfl⟩
    · refine .inr ⟨c :: letters, List.cons_ne_nil _ _, List.forall_mem_cons.2 ⟨hc, hletters⟩, ?_⟩
      rw [hv]
      rfl

theorem readPiece_of_ne_bracket {verbose : Bool} {tok : Tok} (h : tok ≠ .plain '(') (alone : Bool) :
    readPiece verbose alone fuel tok = readPiece verbose false fuel tok := by
  cases tok with
  | dangling => rfl
  | escape c => rfl
  | plain c =>
    have hc : ¬ (c == '(') = true := fun hc => h (congrArg Tok.plain (eq_of_beq hc))
    simp only [readPiece, if_neg hc]

/-- A part that is not left out. -/
def Piece.Fills : Piece → Prop
  | .nodes ns => ns ≠ []
  | .turns _ => True
  | .note => False

theorem gives_readPiece {alone : Bool} {tok : Tok} (h : tok ≠ .plain '(') (hne : tok ≠ .dangling) :
    Gives Piece.Fills (readPiece false alone fuel tok) := by
  cases tok with
  | dangling => exact absurd rfl hne
  | escape c => exact .bind fun e => .pure (List.cons_ne_nil _ _)
  | plain c =>
    have hc : ¬ (c == '(') = true := fun hc => h (congrArg Tok.plain (eq_of_beq hc))
    simp only [readPiece, if_neg hc, Bool.false_and, Bool.false_eq_true, if_false]
    split_ifs
    · exact .bind fun _ => .pure (List.cons_ne_nil _ _)
    · exact .pure (List.cons_ne_nil _ _)
    · exact .pure (List.cons_ne_nil _ _)
    · exact .pure (List.cons_ne_nil _ _)
    · refine .bind fun o => ?_
      split
      · exact .pure (List.cons_ne_nil _ _)
      · exact .pure trivial
    · exact .pure (List.cons_ne_nil _ _)

theorem gives_readBracket {verbose : Bool} {opened : Opened} (h : opened ≠ .nothing) :
    Gives (· ≠ []) (readBracket verbose fuel start opened) := by
  cases opened with
  | nothing => exact absurd rfl h
  | node n => exact .pure nofun
  | look ahead negated before =>
    refine .bind fun body => ?_
    extract_lets close
    have hclose : Gives (· ≠ []) (close ()) := .bind fun _ => .bind fun _ => .pure nofun
    split_ifs
    · exact .bind fun _ => hclose
    · exact hclose
  | condition g =>
    refine .bind fun yes => .bind fun two => ?_
    extract_lets close
    have hclose : ∀ no, Gives (· ≠ []) (close no) := fun no => .bind fun _ => .pure nofun
    split_ifs
    · refine .bind fun no => .bind fun o => ?_
      split_ifs
      · exact .bind fun _ => hclose _
      · exact hclose _
    · exact hclose _
  | atomic => exact .bind fun _ => .bind fun _ => .pure nofun
  | bare => exact .bind fun _ => .bind fun _ => .pure nofun
  | flags on off => exact .bind fun _ => .bind fun _ => .pure nofun
  | capture name => exact .bind fun _ => .bind fun _ => .bind fun _ => .bind fun _ => .pure nofun

/-- Reads what a bracket opens on, and what is inside. -/
def readInside (verbose : Bool) (fuel start : Nat) : Opened → Reader Piece
  | .nothing => return .note
  | opened => do
    let nodes ← readBracket verbose fuel start opened
    return .nodes nodes

theorem run_readPiece_bracket (verbose alone : Bool) (fuel : Nat) (s : Reading) :
    (readPiece verbose alone fuel (.plain '(')).run s =
      (readOpening (s.place - 1) alone >>= readInside verbose fuel (s.place - 1)).run s := by
  cases verbose <;> rfl

theorem run_readInside_eq_ok {verbose : Bool} {opened : Opened} {piece : Piece}
    (hrun : (readInside verbose fuel start opened).run s = .ok (piece, t)) :
    piece.Fills ∨ opened = .nothing ∧ piece = .note ∧ t = s := by
  by_cases hnothing : opened = .nothing
  · subst hnothing
    obtain ⟨rfl, rfl⟩ := Prod.mk.inj (Except.ok.inj hrun)
    exact .inr ⟨rfl, rfl, rfl⟩
  · have heq : readInside verbose fuel start opened = (do
        return .nodes (← readBracket verbose fuel start opened)) := by
      cases opened <;> first | rfl | exact absurd rfl hnothing
    rw [heq, StateT.run_bind] at hrun
    obtain ⟨⟨ns, u⟩, hns, hrun⟩ := bind_eq_ok.1 hrun
    obtain ⟨rfl, rfl⟩ := Prod.mk.inj (Except.ok.inj hrun)
    exact .inl (gives_readBracket hnothing _ _ _ hns)

theorem run_readPiece_alone {tok : Tok} {piece : Piece} (hne : tok ≠ .dangling)
    (hrun : (readPiece false true fuel tok).run s = .ok (piece, t)) :
    ((readPiece false false fuel tok).run s = .ok (piece, t) ∧ (piece.Fills ∨ piece = .note ∧
      ∃ body, .plain ')' ∉ body ∧
        tok :: s.rest = .plain '(' :: .plain '?' :: .plain '#' :: body ++ .plain ')' :: t.rest)) ∨
    ∃ (letters : List Char) (rest : List Tok), letters ≠ [] ∧ (∀ c ∈ letters, isFlag c = true) ∧
      tok :: s.rest = .plain '(' :: .plain '?' :: letters.map .plain ++ .plain ')' :: rest := by
  by_cases hbracket : tok = .plain '('
  · subst hbracket
    rw [run_readPiece_bracket, StateT.run_bind] at hrun ⊢
    obtain ⟨⟨opened, u⟩, hopening, hrun⟩ := bind_eq_ok.1 hrun
    obtain ⟨hsame, hnote⟩ | ⟨letters, hletters, hflags, hs⟩ := run_readOpening_alone hopening
    · refine .inl ⟨by rw [hsame]; exact hrun, ?_⟩
      refine (run_readInside_eq_ok hrun).imp_right fun ⟨hnothing, hpiece, ht⟩ => ⟨hpiece, ?_⟩
      obtain ⟨body, hbody, hs⟩ := hnote hnothing
      exact ⟨body, hbody, by rw [hs, ht]; rfl⟩
    · exact .inr ⟨letters, u.rest, hletters, hflags, by rw [hs]; rfl⟩
  · rw [readPiece_of_ne_bracket hbracket] at hrun
    exact .inl ⟨hrun, .inl (gives_readPiece hbracket hne _ _ _ hrun)⟩

theorem Piece.Fills.addTo_ne_nil {piece : Piece} {here : Nat} {acc' : List Node} (h : piece.Fills)
    (hrun : (piece.addTo here []).run s = .ok (acc', t)) : acc' ≠ [] := by
  cases piece with
  | nodes ns =>
    obtain ⟨rfl, -⟩ := Prod.mk.inj (Except.ok.inj hrun)
    exact h
  | turns bounds => cases hrun
  | note => exact h.elim

/-- A row that does not open with switches for the whole pattern is read in the same way wherever it
stands. -/
theorem run_readRow_of_not_opens (fuel : Nat) : ∀ {s : Reading} {a : List Node}, s.flags = [] →
    ¬ Opens s.rest → 2 * s.rest.length + 1 ≤ fuel →
    (readRow false true fuel []).run s = .ok (a, t) →
    (readRow false false fuel []).run s = .ok (a, t) := by
  induction fuel with
  | zero => exact fun _ _ _ hrun => hrun
  | succ fuel ih =>
    intro s a hflags hopens hfuel hrun
    rw [run_readRow_eq_ok] at hrun ⊢
    rcases hrun with hs | ⟨hs, hends⟩ | ⟨hs, hadvance⟩ |
      ⟨hs, hends, hne, hadvance, hpiece, hadd, hrest⟩
    · exact .nil hs
    · exact .stop hs hends
    · exact .dangling hs hadvance
    · rename_i tok rest u v w piece acc'
      obtain ⟨hu, hsu, -⟩ := advance_of_cons (.closed false s) hs hadvance
      have hlength := congrArg List.length hu
      rw [List.length_cons] at hlength
      obtain ⟨hsame, hshape⟩ | ⟨letters, rest', hletters, hflags, hshape⟩ :=
        run_readPiece_alone hne hpiece
      · refine .part hs hends hne hadvance hsame hadd ?_
        obtain ⟨hchoice, hrow⟩ := choiceCarries_and_rowFrames fuel
        obtain ⟨huv, -⟩ := carried_readPiece hchoice hrow.carries tok (.closed false u) (by omega)
          (Nat.le_refl _) piece v hsame
        obtain hfills | ⟨rfl, body, hbody, hv⟩ := hshape
        · have hverbose : piece.verbose false true v.flags = piece.verbose false false v.flags := by
            cases piece with
            | note => exact hfills.elim
            | _ => rfl
          exact hverbose ▸ run_readRow_of_ne_nil false fuel (hfills.addTo_ne_nil hadd) hrest
        · obtain ⟨rfl, rfl⟩ := Prod.mk.inj (Except.ok.inj hadd)
          have hv' : v.flags = [] := (huv.flags.trans hsu.flags).trans hflags
          have hle := huv.length_le
          have hverbose : Piece.note.verbose false true v.flags = false := by
            rw [hv']
            rfl
          rw [List.isEmpty_nil, Bool.and_true, hverbose] at hrest
          refine ih hv' (fun h => hopens ?_) (by omega) hrest
          rw [hu, hv]
          exact .note hbody h
      · refine absurd ?_ hopens
        rw [hu, hshape]
        exact .switches hletters hflags

/-! ## Brackets behind something else -/

/-- Reading that comes to a malformed part. -/
def Fails (m : Reader α) (s : Reading) : Prop :=
  ∃ what place, m.run s = .error (.malformed what place)

theorem fails_failAt {what : String} {back : Nat} : Fails (failAt what back : Reader α) s :=
  ⟨_, _, rfl⟩

theorem Fails.bind {m : Reader α} {f : α → Reader β}
    (h : Fails m s ∨ ∃ a t, m.run s = .ok (a, t) ∧ Fails (f a) t) : Fails (m >>= f) s := by
  obtain ⟨what, place, h⟩ | ⟨a, t, h, what, place, hf⟩ := h
  · exact ⟨what, place, by rw [StateT.run_bind, h]; rfl⟩
  · exact ⟨what, place, by rw [StateT.run_bind, h]; exact hf⟩

theorem fails_or_advance {tok : Tok} {rest : List Tok} (hs : s.rest = tok :: rest) :
    Fails advance s ∨ ∃ t, advance.run s = .ok ((), t) ∧ t.rest = rest := by
  by_cases hrest : rest.head? = some .dangling
  · refine .inl ⟨"bad escape (end of pattern)", some (s.place + tok.size), ?_⟩
    unfold advance
    simp only [StateT.run_bind, StateT.run_get, pure_bind, hs, StateT.run_set, if_pos hrest]
    rfl
  · exact .inr ⟨_, (run_advance_eq_ok hs).2 ⟨hrest, rfl⟩, rfl⟩

theorem fails_or_next {tok : Tok} {rest : List Tok} (hs : s.rest = tok :: rest) :
    Fails next s ∨ ∃ t, next.run s = .ok (some tok, t) ∧ t.rest = rest := by
  have hnext : next.run s = (advance >>= fun _ => pure s.rest.head?).run s := rfl
  obtain h | ⟨t, h, ht⟩ := fails_or_advance hs
  · refine .inl ?_
    unfold Fails
    rw [hnext]
    exact Fails.bind (.inl h)
  · refine .inr ⟨t, ?_, ht⟩
    rw [hnext, StateT.run_bind, h, hs]
    rfl

theorem fails_or_accept {c : Char} {rest : List Tok} (hs : s.rest = .plain c :: rest) :
    Fails (accept c) s ∨ ∃ t, (accept c).run s = .ok (true, t) ∧ t.rest = rest := by
  have haccept : (accept c).run s = (advance >>= fun _ => pure true).run s := by
    rw [accept, run_peek_bind, hs, List.head?_cons, if_pos rfl]
  obtain h | ⟨t, h, ht⟩ := fails_or_advance hs
  · refine .inl ?_
    unfold Fails
    rw [haccept]
    exact Fails.bind (.inl h)
  · refine .inr ⟨t, ?_, ht⟩
    rw [haccept, StateT.run_bind, h]
    rfl

theorem ne_of_isFlag {c d : Char} (hc : isFlag c = true) (hd : isFlag d = false) : c ≠ d := by
  rintro rfl
  rw [hc] at hd
  cases hd

theorem fails_or_flagsOn (fuel : Nat) :
    ∀ {letters : List Char} {c : Char} {acc : List Char} {s : Reading} {rest : List Tok},
      (∀ c ∈ letters, isFlag c = true) → s.rest = letters.map .plain ++ .plain ')' :: rest →
      letters.length < fuel →
      Fails (flagsOn fuel c acc) s ∨ ∃ on t, (flagsOn fuel c acc).run s = .ok ((on, ')'), t) := by
  induction fuel with
  | zero => intro letters c acc s rest _ _ hfuel; omega
  | succ fuel ih =>
    intro letters c acc s rest hletters hs hfuel
    unfold flagsOn
    extract_lets acc' missing next' kinds
    have hnext : Fails (next' ()) s ∨ ∃ on t, (next' ()).run s = .ok ((on, ')'), t) := by
      cases letters with
      | nil =>
        obtain h | ⟨t, h, ht⟩ := fails_or_next hs
        · exact .inl (.bind (.inl h))
        · refine .inr ⟨acc', t, ?_⟩
          dsimp only [next']
          rw [StateT.run_bind, h]
          rfl
      | cons d letters =>
        obtain ⟨hd, hletters⟩ := List.forall_mem_cons.1 hletters
        have hends : (d == ')' || d == '-' || d == ':') = false := by
          simp only [Bool.or_eq_false_iff, beq_eq_false_iff_ne]
          exact ⟨⟨ne_of_isFlag hd rfl, ne_of_isFlag hd rfl⟩, ne_of_isFlag hd rfl⟩
        obtain h | ⟨t, h, ht⟩ := fails_or_next hs
        · exact .inl (.bind (.inl h))
        · have hrest : (next' ()).run s = (flagsOn fuel d acc').run t := by
            dsimp only [next']
            rw [StateT.run_bind, h, ok_bind]
            dsimp only
            rw [hends, if_neg Bool.false_ne_true, if_pos hd]
          unfold Fails
          rw [hrest]
          exact ih hletters ht (Nat.lt_of_succ_lt_succ hfuel)
    dsimp only [kinds]
    split_ifs
    · exact .inl (.bind (.inl fails_failAt))
    · exact .inl (.bind (.inl fails_failAt))
    · exact .inl (.bind (.inl fails_failAt))
    · exact hnext

theorem fails_readSwitches {c : Char} {letters : List Char} {rest : List Tok}
    (hc : isFlag c = true) (hletters : ∀ c ∈ letters, isFlag c = true)
    (hs : s.rest = letters.map .plain ++ .plain ')' :: rest) :
    Fails (readSwitches start false c) s := by
  have hlength := congrArg List.length hs
  rw [List.length_append, List.length_map, List.length_cons] at hlength
  have hminus : ¬ (c == '-') = true := fun h => ne_of_isFlag hc rfl (eq_of_beq h)
  have hflags : Fails (readFlags c) s ∨ ∃ t, (readFlags c).run s = .ok (none, t) := by
    have hrun : (readFlags c).run s = (flagsOn (s.rest.length + 2) c [] >>= fun x => do
        if x.2 == ')' then
          modify fun s => { s with flags := s.flags ++ x.1.filter (!s.flags.contains ·) }
          return none
        turnedOff (s.rest.length + 2) x.1 x.2).run s := by
      rw [readFlags_eq, StateT.run_bind, StateT.run_get, pure_bind]
      dsimp only
      rw [if_neg hminus]
    unfold Fails
    rw [hrun]
    have hon : Fails (flagsOn (s.rest.length + 2) c []) s ∨ _ :=
      fails_or_flagsOn _ hletters hs (by omega)
    obtain h | ⟨on, t, h⟩ := hon
    · exact .inl (Fails.bind (.inl h))
    · refine .inr ⟨{ t with flags := t.flags ++ on.filter (!t.flags.contains ·) }, ?_⟩
      rw [StateT.run_bind, h]
      rfl
  unfold readSwitches
  rw [if_pos (by rw [hc]; rfl)]
  obtain h | ⟨t, h⟩ := hflags
  · exact .bind (.inl h)
  · exact .bind (.inr ⟨none, t, h, .bind (.inr ⟨t, t, rfl, .bind (.inl fails_failAt)⟩)⟩)

theorem readExtension_of_isFlag {alone : Bool} {c : Char} (hc : isFlag c = true) :
    readExtension start alone (.plain c) = readSwitches start alone c := by
  rw [readExtension] <;> exact ne_of_isFlag hc rfl

theorem fails_or_skipNote (fuel : Nat) : ∀ {body : List Tok} {s : Reading} {rest : List Tok},
    .plain ')' ∉ body → s.rest = body ++ .plain ')' :: rest → body.length < fuel →
    Fails (skipNote start fuel) s ∨
      ∃ t, (skipNote start fuel).run s = .ok ((), t) ∧ t.rest = rest := by
  induction fuel with
  | zero => intro body s rest _ _ hfuel; omega
  | succ fuel ih =>
    intro body s rest hbody hs hfuel
    have hskip : (skipNote start (fuel + 1)).run s = (next >>= fun o =>
        if o = some (.plain ')') then pure () else skipNote start fuel).run s := by
      rw [skipNote, run_peek_bind, hs]
      cases body <;> rfl
    unfold Fails
    rw [hskip]
    cases body with
    | nil =>
      obtain h | ⟨t, h, ht⟩ := fails_or_next hs
      · exact .inl (Fails.bind (.inl h))
      · refine .inr ⟨t, ?_, ht⟩
        rw [StateT.run_bind, h]
        rfl
    | cons tok body =>
      rw [List.mem_cons, not_or] at hbody
      obtain h | ⟨t, h, ht⟩ := fails_or_next hs
      · exact .inl (Fails.bind (.inl h))
      · have hne : some tok ≠ some (.plain ')') := fun h => hbody.1 (Option.some.inj h).symm
        rw [StateT.run_bind, h, ok_bind, if_neg hne]
        exact ih hbody.2 ht (Nat.lt_of_succ_lt_succ hfuel)

theorem fails_or_readOpening (start : Nat) {tok : Tok} {ts : List Tok}
    (hs : s.rest = .plain '?' :: tok :: ts) :
    Fails (readOpening start false) s ∨ ∃ t, t.rest = ts ∧
      (readOpening start false).run s = (readExtension start false tok).run t := by
  rw [readOpening_eq]
  obtain h | ⟨t, h, ht⟩ := fails_or_accept hs
  · exact .inl (.bind (.inl h))
  obtain h' | ⟨u, h', hu⟩ := fails_or_next ht
  · exact .inl (.bind (.inr ⟨true, t, h, Fails.bind (.inl h')⟩))
  · refine .inr ⟨u, hu, ?_⟩
    rw [StateT.run_bind, h, ok_bind]
    simp only [Bool.not_true, Bool.false_eq_true, if_false, StateT.run_bind]
    rw [h']
    rfl

theorem fails_readRow_of_part {verbose first : Bool} {acc : List Node} {rest : List Tok}
    (hs : s.rest = .plain '(' :: rest) (hacc : acc ≠ [])
    (h : ∀ t, t.rest = rest → Fails (readPiece verbose false fuel (.plain '(')) t ∨ ∃ v,
      (readPiece verbose false fuel (.plain '(')).run t = .ok (.note, v) ∧
        Fails (readRow verbose first fuel acc) v) :
    Fails (readRow verbose first (fuel + 1) acc) s := by
  have hempty : acc.isEmpty = false := List.isEmpty_eq_false_iff.2 hacc
  unfold Fails
  rw [readRow_succ, run_peek_bind, hs, List.head?_cons]
  dsimp only
  rw [if_neg (by decide)]
  refine Fails.bind ?_
  obtain hadvance | ⟨t, hadvance, ht⟩ := fails_or_advance hs
  · exact .inl hadvance
  refine .inr ⟨(), t, hadvance, ?_⟩
  rw [if_neg nofun]
  refine Fails.bind (.inr ⟨t, t, rfl, Fails.bind ?_⟩)
  rw [hempty, Bool.and_false]
  obtain hpiece | ⟨v, hpiece, hrest⟩ := h t ht
  · exact .inl hpiece
  · refine .inr ⟨.note, v, hpiece, Fails.bind (.inr ⟨v, v, rfl, Fails.bind ?_⟩)⟩
    refine .inr ⟨acc, v, rfl, ?_⟩
    rwa [Piece.verbose_false]

/-- **Switches for the whole pattern are malformed behind another part.** -/
theorem fails_readRow_of_opens {ts : List Tok} (hopens : Opens ts) :
    ∀ {verbose first : Bool} {acc : List Node} {s : Reading} {fuel : Nat}, s.rest = ts →
      acc ≠ [] → ts.length < fuel → Fails (readRow verbose first fuel acc) s := by
  induction hopens with
  | @switches letters rest hne hflags =>
    intro verbose first acc s fuel hs hacc hfuel
    obtain ⟨fuel, rfl⟩ := Nat.exists_eq_add_one_of_ne_zero (Nat.ne_of_gt (Nat.zero_lt_of_lt hfuel))
    obtain ⟨c, letters, rfl⟩ := List.exists_cons_of_ne_nil hne
    obtain ⟨hc, hletters⟩ := List.forall_mem_cons.1 hflags
    refine fails_readRow_of_part hs hacc fun t ht => .inl ?_
    unfold Fails
    rw [run_readPiece_bracket]
    refine Fails.bind (.inl ?_)
    obtain h | ⟨u, hu, h⟩ := fails_or_readOpening (t.place - 1) ht
    · exact h
    · unfold Fails
      rw [h, readExtension_of_isFlag hc]
      exact fails_readSwitches hc hletters hu
  | @note body rest hbody _ ih =>
    intro verbose first acc s fuel hs hacc hfuel
    obtain ⟨fuel, rfl⟩ := Nat.exists_eq_add_one_of_ne_zero (Nat.ne_of_gt (Nat.zero_lt_of_lt hfuel))
    refine fails_readRow_of_part hs hacc fun t ht => ?_
    have hlength : rest.length < fuel := by
      simp only [List.length_append, List.length_cons] at hfuel
      omega
    unfold Fails
    rw [run_readPiece_bracket]
    obtain h | ⟨u, hu, h⟩ := fails_or_readOpening (t.place - 1) ht
    · exact .inl (Fails.bind (.inl h))
    have hu : u.rest = body ++ .plain ')' :: rest := hu
    have hext : (readExtension (t.place - 1) false (.plain '#')).run u =
        (skipNote (t.place - 1) (u.rest.length + 1) >>= fun _ => pure Opened.nothing).run u := rfl
    have hbody' : body.length < u.rest.length + 1 := by
      rw [hu, List.length_append]
      omega
    obtain h' | ⟨v, h', hv⟩ := fails_or_skipNote (u.rest.length + 1) hbody hu hbody'
    · refine .inl (Fails.bind (.inl ?_))
      unfold Fails
      rw [h, hext]
      exact Fails.bind (.inl h')
    · refine .inr ⟨v, ?_, ih hv hacc hlength⟩
      rw [StateT.run_bind, h, hext, StateT.run_bind, h']
      rfl

end

end Outline.Regex

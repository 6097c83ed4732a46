import Outline.Proofs.Regex.Parts

/-!
# Rows that are read the same

A row is read part by part (`readRow_succ`): what a part adds to the row is found by `readPiece`,
and `RowStep` tells the steps. **A row is read in the same way behind other parts and before a dollar
sign**, which joins the row if nothing else stands behind it (`RowFrames`), and so are alternatives
inside brackets (`ChoiceCarries`): both by one induction (`choiceCarries_and_rowFrames`), as rows
have brackets in them and brackets have rows.

* `readPiece`, `readBracket`, `Piece.addTo`: one part, and what it does to the row;
* `run_readRow_eq_ok`: a row step by step;
* `carried_readPiece`, `addTo_append`: they carry over, as long as a comment ends before the pattern;
* `RowFrames`, `ChoiceCarries`: rows and alternatives.
-/

namespace Outline.Regex

/-! ## Part by part -/

/-- The parts that a bracket adds to a row, from what it opens on. -/
def readBracket (verbose : Bool) (fuel start : Nat) : Opened → Reader (List Node)
  | .nothing => return []
  | .node n => return [n]
  | .look ahead negated before => do
    let body ← readChoice verbose false fuel []
    if !ahead && before.isNone then modify fun s => { s with behindFrom := none }
    closeGroup start
    let widths := (← get).widths
    let behind := if ahead then none else some (seqWidth widths body).1
    return [.look behind negated body]
  | .condition g => do
    let yes ← readRow verbose false fuel []
    let no ← if ← accept '|' then do
        let no ← readRow verbose false fuel []
        if (← peek) = some (.plain '|') then
          failAt "conditional backref with more than two branches"
        pure (some no)
      else pure none
    closeGroup start
    return [.given g yes no]
  | .atomic => do
    let body ← readChoice verbose false fuel []
    closeGroup start
    return [.atomic body]
  | .bare => do
    let body ← readChoice verbose false fuel []
    closeGroup start
    return [.group none [] [] body]
  | .flags on off => do
    let inner := (verbose || on.contains 'x') && !off.contains 'x'
    let body ← readChoice inner false fuel []
    closeGroup start
    return [.group none on off body]
  | .capture name => do
    let g ← openGroup name
    let body ← readChoice verbose false fuel []
    closeGroup start
    modify fun s => { s with widths := s.widths.set (g - 1) (some (seqWidth s.widths body)) }
    return [.group (some g) [] [] body]

/-- What one part does to the row: it adds nodes, repeats the last one, or is left out. -/
inductive Piece where
  | nodes (ns : List Node)
  | turns (bounds : Nat × Option Nat)
  | note

/-- Reads one part that begins with a token. -/
def readPiece (verbose alone : Bool) (fuel : Nat) : Tok → Reader Piece
  | .dangling => return .note
  | .escape c => do
    let e ← plainEscape c
    return .nodes [e.node]
  | .plain c => do
    if verbose && isLayout c then return .nodes []
    else if verbose && c == '#' then
      skipComment ((← get).rest.length + 1)
      return .nodes []
    else if c == '[' then
      let n ← readSet
      return .nodes [n]
    else if c == '.' then return .nodes [.any]
    else if c == '^' then return .nodes [.anchor .lineStart]
    else if c == '$' then return .nodes [.anchor .lineEnd]
    else if c == '*' || c == '+' || c == '?' || c == '{' then
      match ← readBounds c with
      | none => return .nodes [.char c.toNat false]
      | some bounds => return .turns bounds
    else if c == '(' then
      let start := (← get).place - 1
      match ← readOpening start alone with
      | .nothing => return .note
      | opened =>
        let nodes ← readBracket verbose fuel start opened
        return .nodes nodes
    else return .nodes [.char c.toNat false]

/-- The row with one part more that ends behind `here`. -/
def Piece.addTo (here : Nat) (acc : List Node) : Piece → Reader (List Node)
  | .nodes ns => return acc ++ ns
  | .turns bounds => repeatLast here bounds acc
  | .note => return acc

/-- Whether blanks are left out behind a part: switches at the start may say so. -/
def Piece.verbose (verbose alone : Bool) (flags : List Char) : Piece → Bool
  | .note => verbose || (alone && flags.contains 'x')
  | _ => verbose

/-- The tokens that end a row. -/
def endsRow (t : Tok) : Prop := t = .plain '|' ∨ t = .plain ')'

instance (t : Tok) : Decidable (endsRow t) := inferInstanceAs (Decidable (_ ∨ _))

theorem run_ite_eq {α β : Type} {c : Prop} [Decidable c] {x y : Reader β} {m n : Reader α}
    {k : α → Reader β} {u : Reading} (hpos : x.run u = (m >>= k).run u)
    (hneg : y.run u = (n >>= k).run u) :
    (if c then x else y).run u = ((if c then m else n) >>= k).run u := by
  split_ifs
  · exact hpos
  · exact hneg

/-- **A row is read part by part.** -/
theorem readRow_succ (verbose first : Bool) (fuel : Nat) (acc : List Node) :
    readRow verbose first (fuel + 1) acc = (do
      match ← peek with
      | none => return unwrap acc
      | some t =>
        if endsRow t then return unwrap acc
        advance
        if t = .dangling then return unwrap acc
        let here := (← get).place
        let piece ← readPiece verbose (first && acc.isEmpty) fuel t
        let flags := (← get).flags
        let acc' ← piece.addTo here acc
        readRow (piece.verbose verbose (first && acc.isEmpty) flags) first fuel acc') := by
  rw [readRow]
  refine congrArg (peek >>= ·) (funext fun o => ?_)
  split
  · rfl
  · rfl
  · rfl
  rename_i t hbar hclose
  have hnot : ¬ endsRow t := fun h => h.elim (fun h => hbar (h ▸ rfl)) fun h => hclose (h ▸ rfl)
  dsimp only
  rw [if_neg hnot]
  refine congrArg (advance >>= ·) (funext fun _ => ?_)
  cases t with
  | dangling => rfl
  | escape c =>
    simp only [readPiece, Piece.addTo, Piece.verbose, bind_assoc, pure_bind, reduceCtorEq, if_false]
    rfl
  | plain c =>
    refine StateT.ext fun u => ?_
    simp only [readPiece, reduceCtorEq, if_false]
    rw [StateT.run_bind, StateT.run_get, pure_bind]
    refine run_ite_eq ?_ (run_ite_eq ?_ (run_ite_eq ?_ (run_ite_eq ?_ (run_ite_eq ?_
      (run_ite_eq ?_ (run_ite_eq ?_ (run_ite_eq ?_ ?_)))))))
    · simp [Piece.addTo, Piece.verbose]
    · simp [Piece.addTo, Piece.verbose]
    · simp [Piece.addTo, Piece.verbose]
    · rfl
    · rfl
    · rfl
    · rw [StateT.run_bind, StateT.run_get, pure_bind, bind_assoc]
      refine congrArg (fun m : Reader _ => m.run u)
        (congrArg (readBounds c >>= ·) (funext fun o => ?_))
      cases o with
      | none => rfl
      | some bounds => rfl
    · rw [StateT.run_bind, StateT.run_get, pure_bind, bind_assoc, StateT.run_bind get,
        StateT.run_get, pure_bind, bind_assoc]
      refine congrArg (fun m : Reader _ => m.run u)
        (congrArg (readOpening (u.place - 1) _ >>= ·) (funext fun opened => ?_))
      cases opened with
      | nothing => simp [Piece.addTo, Piece.verbose, Bool.and_assoc]
      | look ahead negated before =>
        simp only [readBracket, bind_assoc, pure_bind]
        refine congrArg (readChoice _ _ _ _ >>= ·) (funext fun body => ?_)
        split_ifs <;> simp [Piece.addTo, Piece.verbose]
      | condition g =>
        simp only [readBracket, bind_assoc, pure_bind]
        refine congrArg (readRow _ _ _ _ >>= ·) (funext fun yes => ?_)
        refine congrArg (accept '|' >>= ·) (funext fun two => ?_)
        cases two with
        | false => simp [Piece.addTo, Piece.verbose]
        | true =>
          simp only [if_true, bind_assoc]
          refine congrArg (readRow _ _ _ _ >>= ·) (funext fun no => ?_)
          refine congrArg (peek >>= ·) (funext fun o => ?_)
          split_ifs <;> simp [Piece.addTo, Piece.verbose]
      | _ => simp [readBracket, Piece.addTo, Piece.verbose]
    · rfl

section

variable {ends verbose first : Bool} {fuel : Nat} {acc a : List Node} {s s' t : Reading}

/-- **One step of a row**: it ends, or one part is read and the row goes on. -/
inductive RowStep (verbose first : Bool) (fuel : Nat) (acc : List Node) (s : Reading) :
    List Node → Reading → Prop
  | nil (hs : s.rest = []) : RowStep verbose first fuel acc s (unwrap acc) s
  | stop {tok : Tok} {rest : List Tok} (hs : s.rest = tok :: rest) (hends : endsRow tok) :
      RowStep verbose first fuel acc s (unwrap acc) s
  | dangling {rest : List Tok} {t : Reading} (hs : s.rest = .dangling :: rest)
      (hadvance : advance.run s = .ok ((), t)) : RowStep verbose first fuel acc s (unwrap acc) t
  | part {tok : Tok} {rest : List Tok} {u v w t : Reading} {piece : Piece} {acc' a : List Node}
      (hs : s.rest = tok :: rest) (hends : ¬ endsRow tok) (hne : tok ≠ .dangling)
      (hadvance : advance.run s = .ok ((), u))
      (hpiece : (readPiece verbose (first && acc.isEmpty) fuel tok).run u = .ok (piece, v))
      (hadd : (piece.addTo u.place acc).run v = .ok (acc', w))
      (hrest : (readRow (piece.verbose verbose (first && acc.isEmpty) v.flags) first fuel acc').run
        w = .ok (a, t)) : RowStep verbose first fuel acc s a t

theorem run_readRow_eq_ok : (readRow verbose first (fuel + 1) acc).run s = .ok (a, t) ↔
    RowStep verbose first fuel acc s a t := by
  rw [readRow_succ, run_peek_bind]
  constructor
  · intro hrun
    cases hs : s.rest with
    | nil =>
      rw [hs] at hrun
      obtain ⟨rfl, rfl⟩ := Prod.mk.inj (Except.ok.inj hrun)
      exact .nil hs
    | cons tok rest =>
      rw [hs] at hrun
      dsimp only [List.head?_cons] at hrun
      by_cases hends : endsRow tok
      · rw [if_pos hends] at hrun
        obtain ⟨rfl, rfl⟩ := Prod.mk.inj (Except.ok.inj hrun)
        exact .stop hs hends
      rw [if_neg hends, StateT.run_bind] at hrun
      obtain ⟨⟨_, u⟩, hadvance, hrun⟩ := bind_eq_ok.1 hrun
      by_cases hne : tok = .dangling
      · rw [if_pos hne] at hrun
        obtain ⟨rfl, rfl⟩ := Prod.mk.inj (Except.ok.inj hrun)
        exact .dangling (hne ▸ hs) hadvance
      rw [if_neg hne, StateT.run_bind, StateT.run_get, pure_bind, StateT.run_bind] at hrun
      obtain ⟨⟨piece, v⟩, hpiece, hrun⟩ := bind_eq_ok.1 hrun
      rw [StateT.run_bind, StateT.run_get, pure_bind, StateT.run_bind] at hrun
      obtain ⟨⟨acc', w⟩, hadd, hrest⟩ := bind_eq_ok.1 hrun
      exact .part hs hends hne hadvance hpiece hadd hrest
  · rintro (hs | ⟨hs, hends⟩ | ⟨hs, hadvance⟩ | ⟨hs, hends, hne, hadvance, hpiece, hadd, hrest⟩)
    · rw [hs]
      rfl
    · rw [hs]
      dsimp only [List.head?_cons]
      rw [if_pos hends]
      rfl
    · rw [hs]
      dsimp only [List.head?_cons]
      rw [if_neg (by simp [endsRow]), StateT.run_bind, hadvance]
      rfl
    · rw [hs]
      dsimp only [List.head?_cons]
      rw [if_neg hends, StateT.run_bind, hadvance, ok_bind, if_neg hne, StateT.run_bind,
        StateT.run_get, pure_bind, StateT.run_bind, hpiece, ok_bind, StateT.run_bind,
        StateT.run_get, pure_bind, StateT.run_bind, hadd]
      exact hrest

/-! ## Inside brackets -/

/-- A bracket is closed only where something is left unread. -/
theorem left_of_closeGroup {β : Type} {start : Nat} {f : Unit → Reader β} {b : β}
    (hrun : (closeGroup start >>= f).run s = .ok (b, t)) : s.rest ≠ [] := by
  intro hs
  rw [closeGroup, accept, bind_assoc, bind_assoc, run_peek_bind, hs] at hrun
  cases hrun

theorem carried_skipComment (fuel : Nat) : ∀ {s s' : Reading} {fuel' : Nat}, Alike ends s s' →
    s.rest.length < fuel → s'.rest.length < fuel' →
    CarriedIf True ends (skipComment fuel) (skipComment fuel') s s' := by
  induction fuel with
  | zero => intro s s' fuel' _ hfuel; omega
  | succ fuel ih =>
    intro s s' fuel' h hfuel hfuel'
    obtain ⟨fuel', rfl⟩ := Nat.exists_eq_succ_of_ne_zero (Nat.ne_of_gt (Nat.zero_lt_of_lt hfuel'))
    unfold skipComment
    cases hs : s.rest with
    | nil =>
      intro a t hrun
      rw [StateT.run_bind, run_next_nil hs] at hrun
      obtain ⟨rfl, rfl⟩ := Prod.mk.inj (Except.ok.inj hrun)
      exact ⟨.refl _, fun hleft => absurd hs (hleft trivial)⟩
    | cons tok rest =>
      intro a u hrun
      rw [StateT.run_bind] at hrun ⊢
      obtain ⟨⟨o, t⟩, hnext, hrun⟩ := bind_eq_ok.1 hrun
      obtain ⟨rfl, hrest, hst, t', hnext', htt'⟩ := next_of_cons h hs hnext
      have hlength := congrArg List.length hrest
      rw [List.length_cons] at hlength
      have hfuel'' : t'.rest.length < fuel' := by
        rw [h.length_eq] at hfuel'
        rw [htt'.length_eq]
        omega
      rw [hnext', ok_bind]
      dsimp only at hrun ⊢
      split_ifs at hrun ⊢
      · obtain ⟨rfl, rfl⟩ := Prod.mk.inj (Except.ok.inj hrun)
        exact ⟨hst, fun _ => ⟨t', rfl, htt'⟩⟩
      · obtain ⟨htu, hgo⟩ := ih htt' (by omega) hfuel'' a u hrun
        exact ⟨hst.trans htu, hgo⟩

/-- **Alternatives inside brackets carry over.** -/
def ChoiceCarries (fuel : Nat) : Prop :=
  ∀ (verbose : Bool) (acc : List (List Node)) {ends : Bool} {s s' : Reading} {fuel' : Nat},
    Alike ends s s' → 2 * s.rest.length + 2 ≤ fuel → 2 * s'.rest.length + 2 ≤ fuel' →
      CarriedIf True ends (readChoice verbose false fuel acc) (readChoice verbose false fuel' acc)
        s s'

/-- **Rows inside brackets carry over.** -/
def RowCarries (fuel : Nat) : Prop :=
  ∀ (verbose : Bool) {ends : Bool} {s s' : Reading} {fuel' : Nat},
    Alike ends s s' → 2 * s.rest.length + 1 ≤ fuel → 2 * s'.rest.length + 1 ≤ fuel' →
      CarriedIf True ends (readRow verbose false fuel []) (readRow verbose false fuel' []) s s'

theorem carried_readBracket (hchoice : ChoiceCarries fuel) (hrow : RowCarries fuel) {fuel' : Nat}
    (start start' : Nat) (opened : Opened) (h : Alike ends s s')
    (hfuel : 2 * s.rest.length + 2 ≤ fuel) (hfuel' : 2 * s'.rest.length + 2 ≤ fuel') :
    Carried ends (readBracket verbose fuel start opened) (readBracket verbose fuel' start' opened)
      s s' := by
  cases opened with
  | nothing => exact .pure h _
  | node n => exact .pure h _
  | look ahead negated before =>
    refine (hchoice _ _ h hfuel hfuel').bind (fun body t b u hrun => ?_) fun body t t' _ htt' => ?_
    · dsimp only at hrun
      by_cases hfirst : (!ahead && before.isNone) = true
      · rw [if_pos hfirst, run_modify_bind] at hrun
        have hleft := left_of_closeGroup hrun
        exact hleft
      · rw [if_neg hfirst] at hrun
        exact left_of_closeGroup hrun
    · extract_lets close close'
      have hclose : ∀ u u', Alike ends u u' → Carried ends (close ()) (close' ()) u u' := by
        intro u u' hu
        refine (carried_closeGroup start start' hu).bind fun _ v v' _ hv => .get_bind ?_
        rw [hv.widths]
        exact .pure hv _
      split_ifs
      · refine .modify_bind ⟨List.suffix_rfl, rfl, id⟩ (hclose _ _ ?_)
        exact ⟨htt'.rest, htt'.flags, htt'.widths, htt'.names, rfl, htt'.conditions⟩
      · exact hclose t t' htt'
  | condition g =>
    refine (hrow _ h (by omega) (by omega)).bind (fun yes t b u hrun ht => ?_)
      fun yes t t' hst htt' => ?_
    · rw [StateT.run_bind, run_accept_nil ht, ok_bind] at hrun
      simp only [Bool.false_eq_true, if_false, pure_bind] at hrun
      exact left_of_closeGroup hrun ht
    · have hle := hst.length_le
      rw [h.length_eq] at hfuel'
      refine (carried_accept (by decide) htt').bind fun two u u' htu hu => ?_
      have hle' := htu.length_le
      extract_lets close close'
      have hclose : ∀ no v v', Alike ends v v' → Carried ends (close no) (close' no) v v' :=
        fun no v v' hv => (carried_closeGroup start start' hv).bind fun _ w w' _ hw => .pure hw _
      split_ifs
      · refine (hrow _ hu (by omega) (by rw [hu.length_eq]; omega)).bind
          (fun no v b w hrun hv => ?_) fun no v v' _ hv => ?_
        · rw [run_peek_bind, hv] at hrun
          simp only [List.head?_nil, reduceCtorEq, if_false, pure_bind, close] at hrun
          exact left_of_closeGroup hrun hv
        · exact .peek_ite (by decide) hv (fun _ _ => .fail_bind) (hclose _ _ _ hv)
      · exact hclose none u u' hu
  | atomic =>
    refine (hchoice _ _ h hfuel hfuel').bind (fun body t b u hrun => left_of_closeGroup hrun)
      fun body t t' _ htt' => ?_
    exact (carried_closeGroup _ _ htt').bind fun _ u u' _ hu => .pure hu _
  | bare =>
    refine (hchoice _ _ h hfuel hfuel').bind (fun body t b u hrun => left_of_closeGroup hrun)
      fun body t t' _ htt' => ?_
    exact (carried_closeGroup _ _ htt').bind fun _ u u' _ hu => .pure hu _
  | flags on off =>
    refine (hchoice _ _ h hfuel hfuel').bind (fun body t b u hrun => left_of_closeGroup hrun)
      fun body t t' _ htt' => ?_
    exact (carried_closeGroup _ _ htt').bind fun _ u u' _ hu => .pure hu _
  | capture name =>
    refine (carried_openGroup name h).bind fun g t t' hst htt' => ?_
    have hle := hst.length_le
    rw [h.length_eq] at hfuel'
    refine (hchoice _ _ htt' (by omega) (by rw [htt'.length_eq]; omega)).bind
      (fun body t b u hrun => left_of_closeGroup hrun) fun body u u' _ hu => ?_
    refine (carried_closeGroup _ _ hu).bind fun _ v v' _ hv => ?_
    refine .modify_bind ⟨List.suffix_rfl, rfl, id⟩ (.pure ?_ _)
    refine ⟨hv.rest, hv.flags, ?_, hv.names, hv.behindFrom, hv.conditions⟩
    dsimp only
    rw [hv.widths]

/-- A part carries over; a comment of a verbose pattern only where something is left behind it. -/
theorem carried_readPiece (hchoice : ChoiceCarries fuel) (hrow : RowCarries fuel) {fuel' : Nat}
    (tok : Tok) (h : Alike ends s s') (hfuel : 2 * s.rest.length + 2 ≤ fuel)
    (hfuel' : 2 * s'.rest.length + 2 ≤ fuel') :
    CarriedIf (verbose = true) ends (readPiece verbose false fuel tok)
      (readPiece verbose false fuel' tok) s s' := by
  cases tok with
  | dangling => exact (Carried.pure h _).toIf
  | escape c => exact ((carried_plainEscape c h).bind fun e t t' _ ht => .pure ht _).toIf
  | plain c =>
    unfold readPiece
    by_cases hlayout : (verbose && isLayout c) = true
    · simp only [if_pos hlayout]
      exact (Carried.pure h _).toIf
    simp only [if_neg hlayout]
    by_cases hnote : (verbose && c == '#') = true
    · simp only [if_pos hnote]
      have hskip := (carried_skipComment _ h (Nat.lt_succ_self _) (Nat.lt_succ_self _)).map
        fun _ => Piece.nodes []
      exact hskip.mono fun _ => (Bool.and_eq_true_iff.1 hnote).1
    simp only [if_neg hnote]
    refine Carried.toIf ?_
    split_ifs
    · exact (carried_readSet h).bind fun n t t' _ ht => .pure ht _
    · exact .pure h _
    · exact .pure h _
    · exact .pure h _
    · refine (carried_readBounds c h).bind fun o t t' _ ht => ?_
      cases o with
      | none => exact .pure ht _
      | some bounds => exact .pure ht _
    · refine .get_bind ?_
      refine (carried_readOpening _ _ h).bind fun opened t t' hst ht => ?_
      have hle := hst.length_le
      have hle' := ht.length_eq
      have hlength := h.length_eq
      have hbracket : Carried ends (readBracket verbose fuel (s.place - 1) opened)
          (readBracket verbose fuel' (s'.place - 1) opened) t t' :=
        carried_readBracket hchoice hrow _ _ opened ht (by omega) (by omega)
      have hnodes := hbracket.bind fun nodes u u' _ hu => .pure hu (Piece.nodes nodes)
      cases opened with
      | nothing => exact .pure ht _
      | _ => exact hnodes
    · exact .pure h _

/-- A repetition of a part, behind which its bounds have been read. -/
def repeated (here : Nat) (bounds : Nat × Option Nat) (item : Node) : Reader Node := do
  let back := (← get).place - here + 1
  let body ← match item with
    | .anchor _ => failAt "nothing to repeat" back
    | .turns _ _ _ _ => failAt "multiple repeat" back
    | .group none [] [] body => pure body
    | other => pure [other]
  let greed ← readGreed
  return .turns greed bounds.1 bounds.2 body

theorem repeatLast_concat (here : Nat) (bounds : Nat × Option Nat) (acc : List Node) (item : Node) :
    repeatLast here bounds (acc ++ [item]) = (do
      let n ← repeated here bounds item
      return acc ++ [n]) := by
  unfold repeatLast repeated
  rw [bind_assoc, List.getLast?_concat, List.dropLast_concat]
  refine congrArg (get >>= ·) (funext fun s => ?_)
  dsimp only
  split <;> simp only [bind_assoc, pure_bind]

theorem carried_repeated (here here' : Nat) (bounds : Nat × Option Nat) (item : Node)
    (h : Alike ends s s') :
    Carried ends (repeated here bounds item) (repeated here' bounds item) s s' := by
  unfold repeated
  refine .get_bind ?_
  have hbody : ∀ body, Carried ends (do return Node.turns (← readGreed) bounds.1 bounds.2 body)
      (do return Node.turns (← readGreed) bounds.1 bounds.2 body) s s' := fun body =>
    (carried_readGreed h).bind fun greed t t' _ ht => .pure ht _
  dsimp only
  split
  · exact .fail_bind
  · exact .fail_bind
  · exact hbody _
  · exact hbody _

/-- What a part does to a row, it does behind other parts. -/
theorem addTo_append (piece : Piece) (here here' : Nat) (pre : List Node) {acc' : List Node}
    (h : Alike ends s s') (hrun : (piece.addTo here acc).run s = .ok (acc', t)) :
    Later s t ∧ ∃ t', (piece.addTo here' (pre ++ acc)).run s' = .ok (pre ++ acc', t') ∧
      Alike ends t t' := by
  cases piece with
  | nodes ns =>
    obtain ⟨rfl, rfl⟩ := Prod.mk.inj (Except.ok.inj hrun)
    exact ⟨.refl s, s', by rw [← List.append_assoc]; rfl, h⟩
  | note =>
    obtain ⟨rfl, rfl⟩ := Prod.mk.inj (Except.ok.inj hrun)
    exact ⟨.refl s, s', rfl, h⟩
  | turns bounds =>
    dsimp only [Piece.addTo] at hrun ⊢
    rcases acc.eq_nil_or_concat with rfl | ⟨front, item, rfl⟩
    · cases hrun
    rw [List.concat_eq_append] at hrun ⊢
    rw [repeatLast_concat, StateT.run_bind] at hrun
    obtain ⟨⟨n, u⟩, hn, hrun⟩ := bind_eq_ok.1 hrun
    obtain ⟨rfl, rfl⟩ := Prod.mk.inj (Except.ok.inj hrun)
    obtain ⟨hst, t', hn', ht⟩ := carried_repeated here here' bounds item h n _ hn
    refine ⟨hst, t', ?_, ht⟩
    rw [← List.append_assoc, repeatLast_concat, StateT.run_bind, hn', ok_bind, ← List.append_assoc]
    rfl

theorem addTo_ne_nil {piece : Piece} {here : Nat} {acc' : List Node} (hacc : acc ≠ [])
    (hrun : (piece.addTo here acc).run s = .ok (acc', t)) : acc' ≠ [] := by
  cases piece with
  | nodes ns =>
    obtain ⟨rfl, -⟩ := Prod.mk.inj (Except.ok.inj hrun)
    exact List.append_ne_nil_of_left_ne_nil hacc ns
  | note =>
    obtain ⟨rfl, -⟩ := Prod.mk.inj (Except.ok.inj hrun)
    exact hacc
  | turns bounds =>
    obtain ⟨front, item, rfl⟩ := acc.eq_nil_or_concat.resolve_left hacc
    dsimp only [Piece.addTo] at hrun
    rw [List.concat_eq_append, repeatLast_concat, StateT.run_bind] at hrun
    obtain ⟨⟨n, u⟩, -, hrun⟩ := bind_eq_ok.1 hrun
    obtain ⟨rfl, -⟩ := Prod.mk.inj (Except.ok.inj hrun)
    exact List.append_ne_nil_of_right_ne_nil _ (List.cons_ne_nil n [])

/-- Behind its first part, a row is read in the same way wherever it stands. -/
theorem run_readRow_of_ne_nil (first' : Bool) (fuel : Nat) :
    ∀ {verbose : Bool} {acc : List Node} {s : Reading}, acc ≠ [] →
      (readRow verbose first fuel acc).run s = .ok (a, t) →
      (readRow verbose first' fuel acc).run s = .ok (a, t) := by
  induction fuel with
  | zero => exact fun _ hrun => hrun
  | succ fuel ih =>
    intro verbose acc s hacc hrun
    have hempty : acc.isEmpty = false := List.isEmpty_eq_false_iff.2 hacc
    rw [run_readRow_eq_ok] at hrun ⊢
    rcases hrun with hs | ⟨hs, hends⟩ | ⟨hs, hadvance⟩ |
      ⟨hs, hends, hne, hadvance, hpiece, hadd, hrest⟩
    · exact .nil hs
    · exact .stop hs hends
    · exact .dangling hs hadvance
    · rw [hempty, Bool.and_false] at hpiece hrest
      refine .part hs hends hne hadvance ?_ hadd (ih (addTo_ne_nil hacc hadd) ?_)
      · rwa [hempty, Bool.and_false]
      · rwa [hempty, Bool.and_false]

/-! ## Rows with a dollar sign behind them -/

/-- What a dollar sign adds to a row that is read up to `t`. -/
def sealing (ends : Bool) (t : Reading) : List Node :=
  if ends && t.rest.isEmpty then [.anchor .lineEnd] else []

theorem sealing_of_ne_nil (ht : t.rest ≠ []) : sealing ends t = [] := by
  rw [sealing, List.isEmpty_eq_false_iff.2 ht, Bool.and_false]
  rfl

theorem and_not_isEmpty (ht : t.rest ≠ []) : (ends && !t.rest.isEmpty) = ends := by
  rw [List.isEmpty_eq_false_iff.2 ht, Bool.not_false, Bool.and_true]

theorem unwrap_append (ms ns : List Node) : unwrap (ms ++ ns) = unwrap ms ++ unwrap ns :=
  List.flatMap_append

theorem Piece.verbose_false (piece : Piece) (flags : List Char) :
    piece.verbose verbose false flags = verbose := by
  cases piece <;> simp [Piece.verbose]

/-- **A row is read in the same way** behind other parts and before a dollar sign, which it takes if
nothing else stands behind it. -/
def RowFrames (fuel : Nat) : Prop :=
  ∀ (verbose : Bool) (pre acc : List Node) {ends : Bool} {s s' t : Reading} {fuel' : Nat}
    {a : List Node}, Alike ends s s' → 2 * s.rest.length + 1 ≤ fuel →
    2 * s'.rest.length + 1 ≤ fuel' → unwrap pre = pre →
    (readRow verbose false fuel acc).run s = .ok (a, t) → Later s t ∧
      ((verbose = true ∨ .dangling ∈ s.rest → t.rest ≠ []) →
        ∃ t', (readRow verbose false fuel' (pre ++ acc)).run s' =
          .ok (pre ++ a ++ sealing ends t, t') ∧ Alike (ends && !t.rest.isEmpty) t t')

theorem RowFrames.carries (h : RowFrames fuel) : RowCarries fuel := by
  intro verbose ends s s' fuel' halike hfuel hfuel' a t hrun
  obtain ⟨hst, hgo⟩ := h verbose [] [] halike hfuel hfuel' rfl hrun
  refine ⟨hst, fun hleft => ?_⟩
  have ht := hleft trivial
  obtain ⟨t', hrun', halike'⟩ := hgo fun _ => ht
  rw [sealing_of_ne_nil ht, List.nil_append, List.append_nil] at hrun'
  rw [and_not_isEmpty ht] at halike'
  exact ⟨t', hrun', halike'⟩

/-- A dollar sign that nothing stands behind ends the row. -/
theorem run_readRow_closing (h : Alike ends s s') (hs : s.rest = []) {fuel' : Nat}
    (hfuel' : 2 * s'.rest.length + 1 ≤ fuel') :
    ∃ t', (readRow false first fuel' acc).run s' = .ok (unwrap acc ++ sealing ends s, t') ∧
      Alike (ends && !s.rest.isEmpty) s t' := by
  have hempty : s.rest.isEmpty = true := List.isEmpty_iff.2 hs
  rw [sealing, hempty, Bool.and_true, Bool.not_true, Bool.and_false]
  obtain ⟨fuel', rfl⟩ := Nat.exists_eq_add_one_of_ne_zero (by omega : fuel' ≠ 0)
  cases ends with
  | false =>
    have hs' : s'.rest = [] := by rw [h.rest, hs]; rfl
    refine ⟨s', ?_, h⟩
    rw [run_readRow_eq_ok, if_neg Bool.false_ne_true, List.append_nil]
    exact .nil hs'
  | true =>
    have hs' : s'.rest = [.plain '$'] := by rw [h.rest, hs]; rfl
    have hadvance := (run_advance_eq_ok (x := ()) hs').2 ⟨nofun, rfl⟩
    rw [hs', List.length_singleton] at hfuel'
    obtain ⟨fuel', rfl⟩ := Nat.exists_eq_add_one_of_ne_zero (by omega : fuel' ≠ 0)
    refine ⟨{ s' with rest := [], place := s'.place + 1 }, ?_,
      ⟨by rw [hs]; rfl, h.flags, h.widths, h.names, h.behindFrom, h.conditions⟩⟩
    have hunwrap : unwrap acc ++ [.anchor .lineEnd] = unwrap (acc ++ [.anchor .lineEnd]) := by
      rw [unwrap_append]
      rfl
    have hdollar : ∀ alone u, (readPiece false alone (fuel' + 1) (.plain '$')).run u =
        .ok (.nodes [.anchor .lineEnd], u) := fun _ _ => rfl
    rw [if_pos rfl, hunwrap, run_readRow_eq_ok]
    refine .part hs' (by decide) nofun hadvance (hdollar _ _) rfl ?_
    · exact run_readRow_eq_ok.2 (.nil rfl)

theorem RowFrames.succ (hchoice : ChoiceCarries fuel) (h : RowFrames fuel) :
    RowFrames (fuel + 1) := by
  intro verbose pre acc ends s s' t fuel' a halike hfuel hfuel' hpre hrun
  have hunwrap : unwrap (pre ++ acc) = pre ++ unwrap acc := by rw [unwrap_append, hpre]
  have hcons : ∀ {tok rest}, s.rest = tok :: rest → s.rest ≠ [] := fun hs =>
    hs ▸ List.cons_ne_nil _ _
  have hstep := run_readRow_eq_ok.1 hrun
  obtain ⟨fuel', rfl⟩ := Nat.exists_eq_add_one_of_ne_zero (by omega : fuel' ≠ 0)
  rcases hstep with hs | ⟨hs, hends⟩ | ⟨hs, hadvance⟩ |
    ⟨hs, hends, hne, hadvance, hpiece, hadd, hrest⟩
  · refine ⟨.refl s, fun hleft => ?_⟩
    cases verbose with
    | true => exact absurd hs (hleft (.inl rfl))
    | false => exact hunwrap ▸ run_readRow_closing halike hs hfuel'
  · refine ⟨.refl s, fun _ => ⟨s', ?_, ?_⟩⟩
    · rw [sealing_of_ne_nil (hcons hs), List.append_nil, ← hunwrap, run_readRow_eq_ok]
      exact .stop (halike.head?_ne_dangling hs).1 hends
    · rwa [and_not_isEmpty (hcons hs)]
  · obtain ⟨-, hst, t', hadvance', ht⟩ := advance_of_cons halike hs hadvance
    refine ⟨hst, fun hleft => ⟨t', ?_, ?_⟩⟩
    all_goals have hne := hleft (.inr (hs ▸ List.mem_cons_self))
    · rw [sealing_of_ne_nil hne, List.append_nil, ← hunwrap, run_readRow_eq_ok]
      exact .dangling (halike.head?_ne_dangling hs).1 hadvance'
    · rwa [and_not_isEmpty hne]
  · rename_i tok rest u v w piece acc'
    obtain ⟨hu, hsu, u', hadvance', hu'⟩ := advance_of_cons halike hs hadvance
    have hlength := congrArg List.length hu
    rw [List.length_cons] at hlength
    have hlength' := hu'.length_eq
    rw [halike.length_eq] at hfuel'
    rw [Bool.false_and] at hpiece hrest
    rw [Piece.verbose_false] at hrest
    have hleft : 2 * u'.rest.length + 2 ≤ fuel' := by omega
    obtain ⟨huv, hgo⟩ := carried_readPiece hchoice h.carries tok hu' (by omega) hleft piece v hpiece
    have hle := huv.length_le
    obtain ⟨hvw, -⟩ := addTo_append piece u.place 0 [] (.closed ends v) hadd
    have hle' := hvw.length_le
    obtain ⟨hwt, -⟩ := h verbose pre acc' (.closed ends w) (by omega) (Nat.le_refl _) hpre hrest
    refine ⟨hsu.trans (huv.trans (hvw.trans hwt)), fun hleft => ?_⟩
    obtain ⟨v', hpiece', hv'⟩ := hgo fun hverbose =>
      (hvw.trans hwt).rest_ne_nil (hleft (.inl hverbose))
    obtain ⟨-, w', hadd', hw'⟩ := addTo_append piece u.place u'.place pre hv' hadd
    have hlength'' := hw'.length_eq
    have hleft' : 2 * w'.rest.length + 1 ≤ fuel' := by omega
    obtain ⟨-, hgo'⟩ := h verbose pre acc' hw' (by omega) hleft' hpre hrest
    obtain ⟨t', hrest', ht'⟩ := hgo' fun hor => hleft (hor.imp_right fun hmem =>
      (hsu.trans (huv.trans hvw)).rest.subset hmem)
    refine ⟨t', run_readRow_eq_ok.2 (.part (halike.head?_ne_dangling hs).1 hends hne hadvance' ?_
      hadd' ?_), ht'⟩
    · rwa [Bool.false_and]
    · rwa [Bool.false_and, Piece.verbose_false]

theorem ChoiceCarries.succ (hchoice : ChoiceCarries fuel) (hrow : RowCarries fuel) :
    ChoiceCarries (fuel + 1) := by
  intro verbose acc ends s s' fuel' h hfuel hfuel'
  obtain ⟨fuel', rfl⟩ := Nat.exists_eq_add_one_of_ne_zero (by omega : fuel' ≠ 0)
  have hlength := h.length_eq
  unfold readChoice
  refine (hrow verbose h (by omega) (by omega)).bind_if fun row t t' _ hst ht => ?_
  have hle := hst.length_le
  refine (carried_accept (by decide) ht).toIf.bind_if fun more u u' haccept htu hu => ?_
  cases more with
  | false =>
    cases acc with
    | nil => exact (Carried.pure hu _).toIf
    | cons => exact (Carried.pure hu _).toIf
  | true =>
    have hlength' := congrArg List.length (run_accept_eq_ok haccept : t.rest = _)
    have hlength'' := hu.length_eq
    rw [List.length_cons] at hlength'
    exact hchoice verbose (acc ++ [row]) hu (by omega) (by omega)

/-- **Inside brackets and in rows, patterns are read in the same way.** -/
theorem choiceCarries_and_rowFrames (fuel : Nat) : ChoiceCarries fuel ∧ RowFrames fuel := by
  induction fuel with
  | zero =>
    refine ⟨fun _ _ _ _ _ _ _ hfuel => ?_, fun _ _ _ _ _ _ _ _ _ _ hfuel => ?_⟩
    · omega
    · omega
  | succ fuel ih => exact ⟨ih.1.succ ih.2.carries, ih.2.succ ih.1⟩

end

end Outline.Regex

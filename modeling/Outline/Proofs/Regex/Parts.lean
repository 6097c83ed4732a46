import Outline.Proofs.Regex.Carry

/-!
# Parts of patterns that are read the same

Escapes, sets, bounds of repetitions and what stands between an opening bracket and the parts inside
it **are read in the same way before a dollar sign** that stands behind the pattern.

* `carried_plainEscape`, `carried_readSet`: escapes and sets;
* `carried_readBounds`, `carried_readGreed`: repetitions;
* `carried_readOpening`: what a bracket opens on, other than switches for the whole pattern.
-/

namespace Outline.Regex

variable {β : Type} {ends : Bool} {s s' : Reading}

/-! ## Escapes -/

theorem carried_isClosed (g : Nat) (h : Alike ends s s') :
    Carried ends (isClosed g) (isClosed g) s s' := by
  unfold isClosed
  refine .get_bind ?_
  rw [h.widths]
  exact .pure h _

theorem carried_checkBehind (g : Nat) (h : Alike ends s s') :
    Carried ends (checkBehind g) (checkBehind g) s s' := by
  unfold checkBehind
  refine .get_bind ?_
  rw [h.behindFrom]
  cases s.behindFrom with
  | none => exact .pure h ()
  | some n =>
    refine (carried_isClosed g h).bind fun closed t t' _ htt' => ?_
    dsimp only
    split_ifs
    · exact .fail_bind
    · exact .fail_bind
    · exact .fail
    · exact .pure htt' ()

theorem carried_hexEscape (c : Char) (n : Nat) (h : Alike ends s s') :
    Carried ends (hexEscape c n) (hexEscape c n) s s' := by
  unfold hexEscape
  refine (carried_takeUpTo (by decide) n h (.inl rfl)).bind fun ds t t' _ htt' => ?_
  dsimp only
  split_ifs
  · exact .fail
  · exact .fail
  · exact .pure htt' _

theorem carried_octalEscape (ds : List Char) (h : Alike ends s s') :
    Carried ends (octalEscape ds) (octalEscape ds) s s' := by
  unfold octalEscape
  split_ifs
  · exact .fail
  · exact .pure h _

theorem carried_commonEscape (c : Char) (h : Alike ends s s') :
    Carried ends (commonEscape c) (commonEscape c) s s' := by
  unfold commonEscape
  split_ifs
  · exact carried_hexEscape c 2 h
  · exact carried_hexEscape c 4 h
  · exact carried_hexEscape c 8 h
  · refine (carried_accept (by decide) h).bind fun open? t t' _ htt' => ?_
    split_ifs
    · exact (carried_readName _ _ htt').bind fun _ _ _ _ _ => .fail
    · exact .fail
  · exact .fail
  · exact .pure h _

theorem carried_setEscape (c : Char) (h : Alike ends s s') :
    Carried ends (setEscape c) (setEscape c) s s' := by
  unfold setEscape
  cases controlOf? c with
  | some n => exact .pure h _
  | none =>
    cases categoryOf? c with
    | some e => exact .pure h _
    | none =>
      dsimp only
      split_ifs
      · refine (carried_takeUpTo (by decide) 2 h (.inl rfl)).bind fun ds t t' _ htt' => ?_
        exact carried_octalEscape _ htt'
      · exact carried_commonEscape c h

theorem carried_digitEscape (c : Char) (h : Alike ends s s') :
    Carried ends (digitEscape c) (digitEscape c) s s' := by
  unfold digitEscape
  refine (carried_takeUpTo (by decide) 1 h (.inl rfl)).bind fun ds t t' _ htt' => ?_
  extract_lets g close jp
  have hjp : ∀ third u u', Alike ends u u' → Carried ends (jp third) (jp third) u u' := by
    intro third u u' h
    dsimp only [jp, close]
    split_ifs
    · exact carried_octalEscape _ h
    · refine .get_bind ?_
      rw [h.widths]
      split_ifs
      · refine (carried_isClosed _ h).bind fun closed v v' _ hv => ?_
        split_ifs
        · exact .fail_bind
        · exact (carried_checkBehind _ hv).bind fun _ w w' _ hw => .pure hw _
      · exact .fail
  split
  · split_ifs
    · exact (carried_takeUpTo (by decide) 1 htt' (.inl rfl)).bind fun third u u' _ hu =>
        hjp third u u' hu
    · exact hjp [] t t' htt'
  · exact hjp [] t t' htt'

theorem carried_plainEscape (c : Char) (h : Alike ends s s') :
    Carried ends (plainEscape c) (plainEscape c) s s' := by
  unfold plainEscape
  cases categoryOf? c with
  | some e => exact .pure h _
  | none =>
    cases anchorOf? c with
    | some e => exact .pure h _
    | none =>
      cases controlOf? c with
      | some n => exact .pure h _
      | none =>
        dsimp only
        split_ifs
        · exact (carried_takeUpTo (by decide) 2 h (.inl rfl)).bind fun ds t t' _ htt' =>
            .pure htt' _
        · exact carried_digitEscape c h
        · exact carried_commonEscape c h

/-! ## Sets -/

theorem carried_setMember (tok : Tok) (h : Alike ends s s') :
    Carried ends (setMember tok) (setMember tok) s s' := by
  cases tok with
  | plain c => exact .pure h _
  | escape c => exact (carried_setEscape c h).bind fun e t t' _ htt' => .pure htt' _
  | dangling => exact .pure h _

theorem carried_setMembers (here here' : Nat) (fuel : Nat) :
    ∀ {s s' : Reading} {fuel' : Nat} (acc : List SetItem), Alike ends s s' →
      s.rest.length < fuel → s'.rest.length < fuel' →
      Carried ends (setMembers here fuel acc) (setMembers here' fuel' acc) s s' := by
  induction fuel with
  | zero => intro s s' fuel' acc _ hfuel; omega
  | succ fuel ih =>
    intro s s' fuel' acc h hfuel hfuel'
    obtain ⟨fuel', rfl⟩ := Nat.exists_eq_succ_of_ne_zero (Nat.ne_of_gt (Nat.zero_lt_of_lt hfuel'))
    unfold setMembers
    refine .next_bind h (fun this t t' hs hst htt' => ?_) fun _ b t => ?_
    · have hlength := congrArg List.length hs
      rw [List.length_cons] at hlength
      rw [h.length_eq] at hfuel'
      dsimp only
      split_ifs
      · exact .pure htt' acc
      refine (carried_setMember this htt').bind fun a u u' htu hu => ?_
      refine (carried_accept (by decide) hu).bind fun ranges v v' huv hv => ?_
      have hleft := (htu.trans huv).length_le
      split_ifs
      · refine .next_bind hv (fun that w w' hs' hvw hw => ?_) fun _ b t => ?_
        · dsimp only
          split_ifs
          · exact .pure hw _
          refine (carried_setMember that hw).bind fun b x x' hwx hx => ?_
          have hleft' := (hvw.trans hwx).length_le
          cases a with
          | char lo =>
            cases b with
            | char hi =>
              dsimp only
              split_ifs
              · exact .fail
              · exact ih _ hx (by omega) (by rw [hx.length_eq]; omega)
            | range => exact .fail
            | category => exact .fail
          | range => exact .fail
          | category => exact .fail
        · rintro ⟨⟩
      · exact ih _ hv (by omega) (by rw [hv.length_eq]; omega)
    · rintro ⟨⟩

theorem carried_readSet (h : Alike ends s s') : Carried ends readSet readSet s s' := by
  unfold readSet
  refine .get_bind ?_
  refine (carried_accept (by decide) h).bind fun negated t t' _ htt' => ?_
  refine .get_bind ?_
  refine (carried_setMembers _ _ _ [] htt' (Nat.lt_succ_self _) (Nat.lt_succ_self _)).bind
    fun items u u' _ hu => ?_
  split
  · exact .pure hu _
  · exact .pure hu _

/-! ## Repetitions -/

theorem carried_readTurns (ds : List Char) (h : Alike ends s s') :
    Carried ends (readTurns ds) (readTurns ds) s s' := by
  unfold readTurns
  dsimp only
  split_ifs
  · rintro a t ⟨⟩
  · rintro a t ⟨⟩
  · rintro a t ⟨⟩
  · exact .pure h _

/-- Digits that turn out to be no bounds are read again. -/
theorem carried_readBounds (c : Char) (h : Alike ends s s') :
    Carried ends (readBounds c) (readBounds c) s s' := by
  unfold readBounds
  split_ifs
  · exact .pure h _
  · exact .pure h _
  · exact .pure h _
  refine .get_bind ?_
  have hdigits : ∀ {t t'}, Later s t → Alike ends t t' →
      Carried ends (takeUpTo isAsciiDigit s.rest.length) (takeUpTo isAsciiDigit s'.rest.length)
        t t' := by
    intro t t' hst htt'
    refine carried_takeUpTo (by decide) _ htt' (.inr ⟨hst.length_le, ?_⟩)
    have := hst.length_le
    rw [htt'.length_eq, h.length_eq]
    omega
  refine .peek_ite (by decide) h (fun _ _ => .pure h _) ?_
  refine (hdigits (.refl s) h).bind_from fun lo t t' hst htt' => ?_
  refine (carried_accept (by decide) htt').bind_from fun comma u u' htu hu => ?_
  extract_lets jp jp'
  have hjp : ∀ hi v v', Later s v → Alike ends v v' →
      CarriedFrom s ends (jp hi) (jp' hi) v v' := by
    intro hi v v' hsv hv
    refine (carried_accept (by decide) hv).bind_from fun closes w w' hvw hw => ?_
    split_ifs
    · rintro a x hrun
      obtain ⟨rfl, rfl⟩ := Prod.mk.inj (Except.ok.inj hrun)
      exact ⟨.refl _, s', rfl, h⟩
    · refine Carried.from_origin ?_ (hsv.trans hvw)
      exact (carried_readTurns lo hw).bind fun least x x' _ hx => .pure hx _
    · refine Carried.from_origin ?_ (hsv.trans hvw)
      refine (carried_readTurns lo hw).bind fun least x x' _ hx => ?_
      refine (carried_readTurns hi hx).bind fun most y y' _ hy => ?_
      dsimp only
      split_ifs
      · rintro a t ⟨⟩
      · exact .pure hy _
  split_ifs
  · refine (hdigits (hst.trans htu) hu).bind_from fun hi v v' huv hv => ?_
    exact hjp hi v v' ((hst.trans htu).trans huv) hv
  · exact hjp lo u u' (hst.trans htu) hu

theorem carried_readGreed (h : Alike ends s s') : Carried ends readGreed readGreed s s' := by
  unfold readGreed
  refine (carried_accept (by decide) h).bind fun lazy? t t' _ htt' => ?_
  split_ifs
  · exact .pure htt' _
  refine (carried_accept (by decide) htt').bind fun possessive? u u' _ hu => ?_
  split_ifs
  · exact .pure hu _
  · exact .pure hu _

/-! ## Brackets -/

theorem carried_closeGroup (start start' : Nat) (h : Alike ends s s') :
    Carried ends (closeGroup start) (closeGroup start') s s' := by
  unfold closeGroup
  refine (carried_accept (by decide) h).bind fun closes t t' _ htt' => ?_
  split_ifs
  · rintro a t ⟨⟩
  · exact .pure htt' ()

theorem carried_checkName (name : List Char) (h : Alike ends s s') :
    Carried ends (checkName name) (checkName name) s s' := by
  unfold checkName
  split_ifs
  · exact .pure h ()
  · exact .fail

theorem carried_openGroup (name : Option (List Char)) (h : Alike ends s s') :
    Carried ends (openGroup name) (openGroup name) s s' := by
  have hopen : Alike ends { s with widths := s.widths ++ [none] }
      { s' with widths := s'.widths ++ [none] } :=
    ⟨h.rest, h.flags, congrArg (· ++ [none]) h.widths, h.names, h.behindFrom, h.conditions⟩
  unfold openGroup
  refine .get_bind (.set_bind ⟨List.suffix_rfl, rfl, id⟩ ?_)
  cases name with
  | none =>
    rw [h.widths] at hopen ⊢
    exact .pure hopen _
  | some cs =>
    refine .get_bind ?_
    dsimp only
    rw [h.names, h.widths]
    cases s.names.lookup (String.ofList cs) with
    | some old => exact .fail_bind
    | none =>
      refine .modify_bind ⟨List.suffix_rfl, rfl, id⟩ (.pure ?_ _)
      exact ⟨h.rest, h.flags, rfl, rfl, h.behindFrom, h.conditions⟩

theorem carried_readCondition (h : Alike ends s s') :
    Carried ends readCondition readCondition s s' := by
  unfold readCondition
  refine (carried_readName _ _ h).bind fun name t t' _ htt' => ?_
  extract_lets bad text close g note inRange
  have hclose : ∀ g u u', Alike ends u u' → Carried ends (close g) (close g) u u' := by
    intro g u u' hu
    exact (carried_checkBehind g hu).bind fun _ v v' _ hv => .pure hv g
  split_ifs
  · refine .get_bind ?_
    rw [htt'.names]
    cases t.names.lookup text with
    | none => exact .fail_bind
    | some g => exact hclose g t t' htt'
  · exact .fail_bind
  · dsimp only [inRange]
    split_ifs
    · exact .fail_bind
    · have hasked : (t'.conditions.any fun c => c.1 == g) = t.conditions.any fun c => c.1 == g := by
        have hmap : ∀ l : List (Nat × Nat),
            (l.any fun c => c.1 == g) = (l.map Prod.fst).any fun n => n == g := fun l => by
          rw [List.any_map]
          rfl
        rw [hmap, hmap, htt'.conditions]
      refine .modify_bind ?_ (hclose g _ _ ?_)
      · split_ifs
        · exact .refl t
        · exact ⟨List.suffix_rfl, rfl, id⟩
      · rw [hasked]
        split_ifs
        · exact htt'
        · refine ⟨htt'.rest, htt'.flags, htt'.widths, htt'.names, htt'.behindFrom, ?_⟩
          rw [List.map_append, List.map_append, htt'.conditions]
          rfl
  · exact .fail_bind

theorem carried_skipNote (start start' : Nat) (fuel : Nat) :
    ∀ {s s' : Reading} {fuel' : Nat}, Alike ends s s' →
      s.rest.length < fuel → s'.rest.length < fuel' →
      Carried ends (skipNote start fuel) (skipNote start' fuel') s s' := by
  induction fuel with
  | zero => intro s s' fuel' _ hfuel; omega
  | succ fuel ih =>
    intro s s' fuel' h hfuel hfuel'
    obtain ⟨fuel', rfl⟩ := Nat.exists_eq_succ_of_ne_zero (Nat.ne_of_gt (Nat.zero_lt_of_lt hfuel'))
    unfold skipNote
    refine .peek_bind h (fun tok rest hs => ?_) fun _ _ _ => ?_
    · refine .next_bind h (fun tok t t' hs hst htt' => ?_) fun hnil => absurd hnil (by simp [hs])
      have hlength := congrArg List.length hs
      rw [List.length_cons] at hlength
      rw [h.length_eq] at hfuel'
      split_ifs
      · exact .pure htt' ()
      · exact ih htt' (by omega) (by rw [htt'.length_eq]; omega)
    · rintro a t ⟨⟩

/-! ## Switches -/

theorem carried_flagsOn (fuel : Nat) :
    ∀ {s s' : Reading} {fuel' : Nat} (c : Char) (acc : List Char), Alike ends s s' →
      s.rest.length < fuel → s'.rest.length < fuel' →
      Carried ends (flagsOn fuel c acc) (flagsOn fuel' c acc) s s' := by
  induction fuel with
  | zero => intro s s' fuel' c acc _ hfuel; omega
  | succ fuel ih =>
    intro s s' fuel' c acc h hfuel hfuel'
    obtain ⟨fuel', rfl⟩ := Nat.exists_eq_succ_of_ne_zero (Nat.ne_of_gt (Nat.zero_lt_of_lt hfuel'))
    unfold flagsOn
    extract_lets acc' missing rest kinds rest' kinds'
    have hrest : Carried ends (rest ()) (rest' ()) s s' := by
      refine .next_bind h (fun tok t t' hs _ htt' => ?_) fun _ b t => failAt_ne_ok
      have hlength := congrArg List.length hs
      rw [List.length_cons] at hlength
      rw [h.length_eq] at hfuel'
      cases tok with
      | plain d =>
        dsimp only
        split_ifs
        · exact .pure htt' _
        · exact ih d acc' htt' (by omega) (by rw [htt'.length_eq]; omega)
        · exact .fail
      | escape => exact .fail
      | dangling => exact .fail
    dsimp only [kinds, kinds']
    split_ifs
    · exact .fail_bind
    · exact .fail_bind
    · exact .fail_bind
    · exact hrest

theorem carried_flagsOff (fuel : Nat) :
    ∀ {s s' : Reading} {fuel' : Nat} (c : Char) (acc : List Char), Alike ends s s' →
      s.rest.length < fuel → s'.rest.length < fuel' →
      Carried ends (flagsOff fuel c acc) (flagsOff fuel' c acc) s s' := by
  induction fuel with
  | zero => intro s s' fuel' c acc _ hfuel; omega
  | succ fuel ih =>
    intro s s' fuel' c acc h hfuel hfuel'
    obtain ⟨fuel', rfl⟩ := Nat.exists_eq_succ_of_ne_zero (Nat.ne_of_gt (Nat.zero_lt_of_lt hfuel'))
    unfold flagsOff
    extract_lets acc' rest rest'
    have hrest : Carried ends (rest ()) (rest' ()) s s' := by
      refine .next_bind h (fun tok t t' hs _ htt' => ?_) fun _ b t => failAt_ne_ok
      have hlength := congrArg List.length hs
      rw [List.length_cons] at hlength
      rw [h.length_eq] at hfuel'
      cases tok with
      | plain d =>
        dsimp only
        split_ifs
        · exact .pure htt' _
        · exact ih d acc' htt' (by omega) (by rw [htt'.length_eq]; omega)
        · exact .fail
      | escape => exact .fail
      | dangling => exact .fail
    split_ifs
    · exact .fail_bind
    · exact hrest

/-- What is read of switches behind those that are turned on. -/
def turnedOff (fuel : Nat) (on : List Char) (close : Char) :
    Reader (Option (List Char × List Char)) := do
  if on.contains 't' then failAt "bad inline flags: cannot turn on global flag" 1
  let off ← if close == '-' then do
      match ← next with
      | none => failAt "missing flag"
      | some t =>
        match t with
        | .plain d => if isFlag d then flagsOff fuel d [] else failAt (flagFault "missing flag" t) 1
        | _ => failAt "missing flag" t.size
    else pure []
  if off.contains 't' then failAt "bad inline flags: cannot turn off global flag" 1
  if on.any off.contains then failAt "bad inline flags: flag turned on and off" 1
  return some (on, off)

theorem readFlags_eq (first : Char) : readFlags first = (do
    let fuel := (← get).rest.length + 2
    let (on, close) ← if first == '-' then pure ([], '-') else flagsOn fuel first []
    if close == ')' then
      modify fun s => { s with flags := s.flags ++ on.filter (!s.flags.contains ·) }
      return none
    turnedOff fuel on close) := rfl

theorem carried_turnedOff {fuel fuel' : Nat} (on : List Char) (close : Char) (h : Alike ends s s')
    (hfuel : s.rest.length < fuel) (hfuel' : s'.rest.length < fuel') :
    Carried ends (turnedOff fuel on close) (turnedOff fuel' on close) s s' := by
  unfold turnedOff
  extract_lets found off off'
  have hfound : ∀ cs t t', Alike ends t t' → Carried ends (found cs) (found cs) t t' := by
    intro cs t t' htt'
    dsimp only [found]
    split_ifs
    · exact .fail_bind
    · exact .fail_bind
    · exact .fail_bind
    · exact .pure htt' _
  have hoff : Carried ends (off ()) (off' ()) s s' := by
    dsimp only [off, off']
    split_ifs
    · refine .next_bind h (fun tok t t' hs hst htt' => ?_) fun _ b t => by rintro ⟨⟩
      have hle := hst.length_le
      rw [h.length_eq] at hfuel'
      cases tok with
      | plain d =>
        dsimp only
        split_ifs
        · refine (carried_flagsOff fuel d [] htt' (by omega) ?_).bind fun cs u u' _ hu => ?_
          · rw [htt'.length_eq]
            omega
          · exact hfound cs u u' hu
        · exact .fail_bind
      | escape => exact .fail_bind
      | dangling => exact .fail_bind
    · exact hfound [] s s' h
  split_ifs
  · exact .fail_bind
  · exact hoff

/-- Switches that are not for the whole pattern. -/
theorem Carried.readFlags_bind (first : Char) {f f' : Option (List Char × List Char) → Reader β}
    (h : Alike ends s s')
    (hsome : ∀ onOff t t', Later s t → Alike ends t t' →
      Carried ends (f (some onOff)) (f' (some onOff)) t t')
    (hnone : ∀ b t u, (f none).run t ≠ .ok (b, u)) :
    Carried ends (readFlags first >>= f) (readFlags first >>= f') s s' := by
  rw [readFlags_eq, bind_assoc, bind_assoc]
  refine .get_bind ?_
  extract_lets fuel choose fuel' choose'
  have hchoose : ∀ x t t', Later s t → Alike ends t t' →
      Carried ends (choose x >>= f) (choose' x >>= f') t t' := by
    rintro ⟨on, close⟩ t t' hst htt'
    have hle := hst.length_le
    dsimp only [choose, choose']
    split_ifs
    · exact fun b u hrun => absurd hrun (hnone b _ u)
    · refine (carried_turnedOff on close htt' ?_ ?_).bind fun onOff? u u' htu hu => ?_
      · dsimp only [fuel]
        omega
      · dsimp only [fuel']
        rw [htt'.length_eq, h.length_eq]
        omega
      · cases onOff? with
        | none => exact fun b v hrun => absurd hrun (hnone b _ v)
        | some onOff => exact hsome onOff u u' (hst.trans htu) hu
  split_ifs
  · rw [pure_bind, pure_bind]
    exact hchoose ([], '-') s s' (.refl s) h
  · rw [bind_assoc, bind_assoc]
    refine (carried_flagsOn fuel first [] h ?_ ?_).bind fun x t t' hst htt' =>
      hchoose x t t' hst htt'
    · dsimp only [fuel]
      omega
    · dsimp only [fuel']
      omega

/-! ## Openings -/

/-- Openings that do not stand alone. -/
theorem carried_readOpening (start start' : Nat) (h : Alike ends s s') :
    Carried ends (readOpening start false) (readOpening start' false) s s' := by
  unfold readOpening
  refine (carried_accept (by decide) h).bind fun asks t t' hst htt' => ?_
  cases asks with
  | false => exact .pure htt' _
  | true =>
  refine .next_bind htt' (fun tok u u' _ _ hu => ?_) fun _ b u => failAt_ne_ok
  dsimp only
  split
  · refine (carried_accept (by decide) hu).bind fun names v v' _ hv => ?_
    split_ifs
    · refine (carried_readName _ _ hv).bind fun name w w' _ hw => ?_
      exact (carried_checkName name hw).bind fun _ x x' _ hx => .pure hx _
    refine (carried_accept (by decide) hv).bind fun again w w' _ hw => ?_
    split_ifs
    · refine (carried_readName _ _ hw).bind fun name x x' _ hx => ?_
      refine (carried_checkName name hx).bind fun _ y y' _ hy => ?_
      refine .get_bind ?_
      rw [hy.names]
      cases y.names.lookup (String.ofList name) with
      | none => exact .fail
      | some g =>
        refine (carried_isClosed g hy).bind fun closed z z' _ hz => ?_
        split_ifs
        · exact .fail_bind
        · exact (carried_checkBehind g hz).bind fun _ _ _ _ h => .pure h _
    · refine .next_bind hw (fun tok x x' _ _ _ => .fail) fun _ b u => failAt_ne_ok
  · exact .pure hu _
  · refine .get_bind ?_
    refine (carried_skipNote start start' _ hu ?_ ?_).bind fun _ v v' _ hv => .pure hv _
    · exact Nat.lt_succ_self _
    · exact Nat.lt_succ_self _
  · exact .pure hu _
  · exact .pure hu _
  · refine .next_bind hu (fun tok v v' _ _ hv => ?_) fun _ b u => failAt_ne_ok
    dsimp only
    split_ifs
    · refine .get_bind ?_
      rw [hv.behindFrom, hv.widths]
      split_ifs
      · refine .set_bind ⟨List.suffix_rfl, rfl, id⟩ (.pure ?_ _)
        exact ⟨hv.rest, hv.flags, rfl, hv.names, rfl, hv.conditions⟩
      · exact .pure hv _
    · exact .fail
  · exact (carried_readCondition hu).bind fun g v v' _ hv => .pure hv _
  · exact .pure hu _
  · refine .ite (fun _ => ?_) fun _ => .fail
    refine .readFlags_bind _ hu (fun onOff v v' _ hv => .pure hv _) fun b v w => ?_
    rintro ⟨⟩
  · exact .fail

end Outline.Regex

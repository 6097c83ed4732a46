import Mathlib.Tactic.SplitIfs
import Outline.Proofs.Except
import Outline.Regex.Read

/-!
# Reading the same with more behind it

Two readings are alike if they differ only in their places and in a dollar sign that may stand
behind the second one (`Alike`). **What is read from the one is read from the other** (`Carried`): this is
shown step by step, with one rule for each step that a reader can take, and the readings stay alike.
A reader never comes to a backslash at the end of the pattern (`Later`).

* `Alike`, `Later`: two readings, and what a reading comes to;
* `Carried`, `CarriedFrom`: steps that carry over;
* `Carried.bind`, `Carried.peek_bind`, `Carried.next_bind`: the rules;
* `carried_accept`, `carried_takeUpTo`, `carried_readName`: tokens and names.
-/

namespace Outline.Regex

/-- What stands behind a reading that goes on to a dollar sign. -/
def closing (ends : Bool) : List Tok := if ends then [.plain '$'] else []

/-- Two readings of the same tokens, the second one perhaps with a dollar sign behind them. -/
structure Alike (ends : Bool) (s s' : Reading) : Prop where
  rest : s'.rest = s.rest ++ closing ends
  flags : s'.flags = s.flags
  widths : s'.widths = s.widths
  names : s'.names = s.names
  behindFrom : s'.behindFrom = s.behindFrom
  conditions : s'.conditions.map Prod.fst = s.conditions.map Prod.fst

/-- A backslash ends the pattern, and is not what comes next. -/
def Reading.Guarded (s : Reading) : Prop :=
  .dangling ∈ s.rest ∧ s.rest.head? ≠ some .dangling

/-- What a reading may come to: it has gone on, and not up to a backslash at the end. -/
structure Later (s t : Reading) : Prop where
  rest : t.rest <:+ s.rest
  flags : t.flags = s.flags
  guarded : s.Guarded → t.Guarded

theorem Later.refl (s : Reading) : Later s s := ⟨List.suffix_rfl, rfl, id⟩

theorem Later.trans {s t u : Reading} (h : Later s t) (h' : Later t u) : Later s u :=
  ⟨h'.rest.trans h.rest, h'.flags.trans h.flags, h'.guarded ∘ h.guarded⟩

theorem Alike.length_eq {ends : Bool} {s s' : Reading} (h : Alike ends s s') :
    s'.rest.length = s.rest.length + (closing ends).length := by
  rw [h.rest, List.length_append]

theorem Alike.closed (ends : Bool) (t : Reading) :
    Alike ends t { t with rest := t.rest ++ closing ends } := ⟨rfl, rfl, rfl, rfl, rfl, rfl⟩

theorem Later.rest_ne_nil {s t : Reading} (h : Later s t) (ht : t.rest ≠ []) : s.rest ≠ [] :=
  fun hs => ht (List.suffix_nil.1 (hs ▸ h.rest))

theorem Later.length_le {s t : Reading} (h : Later s t) : t.rest.length ≤ s.rest.length :=
  h.rest.length_le

/-- Steps of reading that carry over, in a reading that began at `origin`. -/
def CarriedFrom {α : Type} (origin : Reading) (ends : Bool) (m m' : Reader α) (s s' : Reading) :
    Prop :=
  ∀ a t, m.run s = .ok (a, t) → Later origin t ∧ ∃ t', m'.run s' = .ok (a, t') ∧ Alike ends t t'

/-- **Steps of reading that carry over.** -/
def Carried {α : Type} (ends : Bool) (m m' : Reader α) (s s' : Reading) : Prop :=
  CarriedFrom s ends m m' s s'

section

variable {α β : Type} {ends : Bool} {s s' t u : Reading} {m m' : Reader α} {f f' : α → Reader β}

theorem Carried.from_origin {origin : Reading} (h : Carried ends m m' s s')
    (hlater : Later origin s) : CarriedFrom origin ends m m' s s' := fun a t hrun =>
  ⟨hlater.trans (h a t hrun).1, (h a t hrun).2⟩

theorem Carried.bind_from {origin : Reading} (h : Carried ends m m' s s')
    (hf : ∀ a t t', Later s t → Alike ends t t' →
      CarriedFrom origin ends (f a) (f' a) t t') :
    CarriedFrom origin ends (m >>= f) (m' >>= f') s s' := by
  intro b u hrun
  rw [StateT.run_bind] at hrun
  obtain ⟨⟨a, t⟩, hm, hfa⟩ := bind_eq_ok.1 hrun
  obtain ⟨hst, t', hm', ht⟩ := h a t hm
  obtain ⟨hlater, u', hfa', hu⟩ := hf a t t' hst ht b u hfa
  refine ⟨hlater, u', ?_, hu⟩
  rw [StateT.run_bind, hm']
  exact hfa'

theorem Carried.bind (h : Carried ends m m' s s')
    (hf : ∀ a t t', Later s t → Alike ends t t' → Carried ends (f a) (f' a) t t') :
    Carried ends (m >>= f) (m' >>= f') s s' :=
  h.bind_from fun a t t' hst htt' => (hf a t t' hst htt').from_origin hst

theorem Carried.pure (h : Alike ends s s') (a : α) :
    Carried ends (Pure.pure a) (Pure.pure a) s s' := by
  rintro b t hrun
  obtain ⟨rfl, rfl⟩ := Prod.mk.inj (Except.ok.inj hrun)
  exact ⟨.refl _, s', rfl, h⟩

theorem Carried.ite {c : Prop} [Decidable c] {n n' : Reader α} (hyes : c → Carried ends m m' s s')
    (hno : ¬ c → Carried ends n n' s s') :
    Carried ends (if c then m else n) (if c then m' else n') s s' := by
  split_ifs with hc
  · exact hyes hc
  · exact hno hc

theorem Carried.get_bind {f f' : Reading → Reader β} (h : Carried ends (f s) (f' s') s s') :
    Carried ends (get >>= f) (get >>= f') s s' := h

theorem Carried.set_bind {f f' : Unit → Reader β} {t t' : Reading} (hst : Later s t)
    (h : Carried ends (f ()) (f' ()) t t') :
    Carried ends (set t >>= f) (set t' >>= f') s s' := h.from_origin hst

theorem Carried.modify_bind {f f' : Unit → Reader β} {g g' : Reading → Reading}
    (hst : Later s (g s)) (h : Carried ends (f ()) (f' ()) (g s) (g' s')) :
    Carried ends (modify g >>= f) (modify g' >>= f') s s' := h.from_origin hst

theorem failAt_ne_ok {what : String} {back : Nat} {a : α} {t : Reading} :
    (failAt what back : Reader α).run s ≠ .ok (a, t) := by
  rintro ⟨⟩

theorem Carried.fail {what : String} {back : Nat} :
    Carried ends (failAt what back) m' s s' := by
  rintro a t ⟨⟩

theorem Carried.fail_bind {m' : Reader β} {what : String} {back : Nat} :
    Carried ends (failAt what back >>= f) m' s s' := by
  rintro a t ⟨⟩

/-! ## Tokens -/

theorem ok_bind {ε α β : Type} (a : α) (f : α → Except ε β) : (Except.ok a >>= f) = f a := rfl

theorem run_peek_bind (f : Option Tok → Reader β) :
    (peek >>= f).run s = (f s.rest.head?).run s := rfl

theorem run_modify_bind (g : Reading → Reading) (f : Unit → Reader β) :
    (modify g >>= f).run s = (f ()).run (g s) := rfl

theorem Alike.head?_ne_dangling (h : Alike ends s s') {tok : Tok} {rest : List Tok}
    (hs : s.rest = tok :: rest) : s'.rest = tok :: (rest ++ closing ends) ∧
      ((rest ++ closing ends).head? = some .dangling ↔ rest.head? = some .dangling) := by
  refine ⟨by rw [h.rest, hs, List.cons_append], ?_⟩
  cases rest with
  | nil => cases ends <;> simp [closing]
  | cons a as => rfl

/-- Going past the next token, if there is one. -/
theorem run_advance_eq_ok {tok : Tok} {rest : List Tok} (hs : s.rest = tok :: rest) {x : Unit}
    {t : Reading} : advance.run s = .ok (x, t) ↔ rest.head? ≠ some .dangling ∧
      { s with rest := rest, place := s.place + tok.size } = t := by
  unfold advance
  simp only [StateT.run_bind, StateT.run_get, pure_bind, hs, StateT.run_set]
  by_cases hrest : rest.head? = some .dangling
  · rw [if_pos hrest]
    exact iff_of_false (by rintro ⟨⟩) fun h => h.1 hrest
  · rw [if_neg hrest, and_iff_right hrest]
    exact ⟨fun h => (Prod.mk.inj (Except.ok.inj h)).2, fun h => h ▸ rfl⟩

/-- Going past a token carries over. -/
theorem advance_of_cons (h : Alike ends s s') {tok : Tok} {rest : List Tok}
    (hs : s.rest = tok :: rest) {x : Unit} {t : Reading} (hrun : advance.run s = .ok (x, t)) :
    s.rest = tok :: t.rest ∧ Later s t ∧ ∃ t', advance.run s' = .ok ((), t') ∧ Alike ends t t' := by
  obtain ⟨hs', hdangling⟩ := h.head?_ne_dangling hs
  obtain ⟨hnot, rfl⟩ := (run_advance_eq_ok hs).1 hrun
  refine ⟨hs, ⟨hs ▸ List.suffix_cons tok rest, rfl, fun hguard => ⟨?_, hnot⟩⟩, _,
    (run_advance_eq_ok hs').2 ⟨mt hdangling.1 hnot, rfl⟩,
    ⟨rfl, h.flags, h.widths, h.names, h.behindFrom, h.conditions⟩⟩
  obtain ⟨hmem, hhead⟩ := hguard
  rw [hs] at hmem hhead
  exact (List.mem_cons.1 hmem).resolve_left fun he => hhead (he ▸ rfl)

theorem Carried.advance_bind {f f' : Unit → Reader β} (h : Alike ends s s') {tok : Tok}
    {rest : List Tok} (hs : s.rest = tok :: rest)
    (hf : ∀ t t', s.rest = tok :: t.rest → Later s t → Alike ends t t' →
      Carried ends (f ()) (f' ()) t t') :
    Carried ends (advance >>= f) (advance >>= f') s s' := by
  intro b u hrun
  rw [StateT.run_bind] at hrun
  obtain ⟨⟨x, t⟩, hadvance, hrun⟩ := bind_eq_ok.1 hrun
  obtain ⟨hrest, hst, t', hadvance', htt'⟩ := advance_of_cons h hs hadvance
  obtain ⟨htu, u', hrun', hu⟩ := hf t t' hrest hst htt' b u hrun
  refine ⟨hst.trans htu, u', ?_, hu⟩
  rw [StateT.run_bind, hadvance']
  exact hrun'

theorem Carried.peek_bind {f f' : Option Tok → Reader β} (h : Alike ends s s')
    (hsome : ∀ tok rest, s.rest = tok :: rest → Carried ends (f (some tok)) (f' (some tok)) s s')
    (hnone : s.rest = [] → ∀ o, o = none ∨ o = some (.plain '$') →
      Carried ends (f none) (f' o) s s') :
    Carried ends (peek >>= f) (peek >>= f') s s' := by
  change Carried ends (f s.rest.head?) (f' s'.rest.head?) s s'
  rw [h.rest]
  cases hs : s.rest with
  | nil =>
    refine hnone hs _ ?_
    cases ends <;> simp [closing]
  | cons tok rest => exact hsome tok rest hs

theorem run_next_nil (hs : s.rest = []) : next.run s = .ok (none, s) := by
  unfold next peek advance
  simp [hs]
  rfl

/-- The next token is the same for both, if there is one. -/
theorem next_of_cons (h : Alike ends s s') {tok : Tok} {rest : List Tok} (hs : s.rest = tok :: rest)
    {o : Option Tok} {t : Reading} (hrun : next.run s = .ok (o, t)) :
    o = some tok ∧ s.rest = tok :: t.rest ∧ Later s t ∧
      ∃ t', next.run s' = .ok (some tok, t') ∧ Alike ends t t' := by
  have hs' := (h.head?_ne_dangling hs).1
  change (advance >>= fun _ => Pure.pure s.rest.head?).run s = _ at hrun
  change _ ∧ _ ∧ _ ∧ ∃ t', (advance >>= fun _ => Pure.pure s'.rest.head?).run s' = _ ∧ _
  rw [hs, List.head?_cons, StateT.run_bind] at hrun
  obtain ⟨⟨x, u⟩, hadvance, hrun⟩ := bind_eq_ok.1 hrun
  obtain ⟨rfl, rfl⟩ := Prod.mk.inj (Except.ok.inj hrun)
  obtain ⟨hrest, hst, t', hadvance', htt'⟩ := advance_of_cons h hs hadvance
  refine ⟨rfl, hrest, hst, t', ?_, htt'⟩
  rw [hs', List.head?_cons, StateT.run_bind, hadvance']
  rfl

theorem run_next_eq_ok {o : Option Tok} (hrun : next.run s = .ok (o, t)) :
    (s.rest = [] ∧ o = none ∧ t = s) ∨ ∃ tok, o = some tok ∧ s.rest = tok :: t.rest := by
  cases hs : s.rest with
  | nil =>
    rw [run_next_nil hs] at hrun
    obtain ⟨rfl, rfl⟩ := Prod.mk.inj (Except.ok.inj hrun)
    exact .inl ⟨rfl, rfl, rfl⟩
  | cons tok rest =>
    obtain ⟨rfl, ht, -⟩ := next_of_cons (.closed false s) hs hrun
    exact .inr ⟨tok, rfl, hs ▸ ht⟩

theorem Carried.next_bind {f f' : Option Tok → Reader β} (h : Alike ends s s')
    (hsome : ∀ tok t t', s.rest = tok :: t.rest → Later s t → Alike ends t t' →
      Carried ends (f (some tok)) (f' (some tok)) t t')
    (hnone : s.rest = [] → ∀ b t, (f none).run s ≠ .ok (b, t)) :
    Carried ends (next >>= f) (next >>= f') s s' := by
  intro b u hrun
  rw [StateT.run_bind] at hrun
  cases hs : s.rest with
  | nil =>
    rw [run_next_nil hs] at hrun
    exact absurd hrun (hnone hs b u)
  | cons tok rest =>
    obtain ⟨⟨o, t⟩, hnext, hrun⟩ := bind_eq_ok.1 hrun
    obtain ⟨rfl, hrest, hst, t', hnext', htt'⟩ := next_of_cons h hs hnext
    obtain ⟨htu, u', hrun', hu⟩ := hsome tok t t' hrest hst htt' b u hrun
    refine ⟨hst.trans htu, u', ?_, hu⟩
    rw [StateT.run_bind, hnext']
    exact hrun'

/-- Whether a character other than the dollar sign comes next is the same for both. -/
theorem Carried.peek_ite {c : Char} (hc : c ≠ '$') (h : Alike ends s s')
    {yes yes' no no' : Reader β}
    (hyes : ∀ rest, s.rest = .plain c :: rest → Carried ends yes yes' s s')
    (hno : Carried ends no no' s s') :
    Carried ends (peek >>= fun o => if o = some (.plain c) then yes else no)
      (peek >>= fun o => if o = some (.plain c) then yes' else no') s s' := by
  refine .peek_bind h (fun tok rest hs => ?_) fun _ o ho => ?_
  · split_ifs with htok
    · exact hyes rest (by rw [hs, Option.some.inj htok])
    · exact hno
  · have hne : o ≠ some (.plain c) := by
      rintro rfl
      rcases ho with ho | ho
      · cases ho
      · exact hc (Tok.plain.inj (Option.some.inj ho))
    rw [if_neg hne, if_neg (by simp)]
    exact hno

theorem carried_accept {c : Char} (hc : c ≠ '$') (h : Alike ends s s') :
    Carried ends (accept c) (accept c) s s' :=
  .peek_ite hc h (fun _ hs => .advance_bind h hs fun _ _ _ _ htt' => .pure htt' true)
    (.pure h false)

theorem run_accept_eq_ok {ch : Char} {b : Bool} (hrun : (accept ch).run s = .ok (b, t)) :
    if b then s.rest = .plain ch :: t.rest else s.rest.head? ≠ some (.plain ch) ∧ t = s := by
  rw [accept, run_peek_bind] at hrun
  by_cases hhead : s.rest.head? = some (.plain ch)
  · obtain ⟨rest, hs⟩ := List.head?_eq_some_iff.1 hhead
    rw [if_pos hhead, StateT.run_bind] at hrun
    obtain ⟨⟨x, u⟩, hadvance, hrun⟩ := bind_eq_ok.1 hrun
    obtain ⟨rfl, rfl⟩ := Prod.mk.inj (Except.ok.inj hrun)
    obtain ⟨-, rfl⟩ := (run_advance_eq_ok hs).1 hadvance
    exact hs
  · rw [if_neg hhead] at hrun
    obtain ⟨rfl, rfl⟩ := Prod.mk.inj (Except.ok.inj hrun)
    exact ⟨hhead, rfl⟩

theorem later_accept {c : Char} {b : Bool} (hrun : (accept c).run t = .ok (b, u)) : Later t u := by
  have h := run_accept_eq_ok hrun
  cases b with
  | false => exact h.2 ▸ .refl t
  | true =>
    rw [accept, run_peek_bind, h, List.head?_cons, if_pos rfl, StateT.run_bind] at hrun
    obtain ⟨⟨x, v⟩, hadvance, hrun⟩ := bind_eq_ok.1 hrun
    obtain ⟨-, rfl⟩ := Prod.mk.inj (Except.ok.inj hrun)
    exact (advance_of_cons (.closed false t) h hadvance).2.1

theorem run_accept_nil {ch : Char} (hs : s.rest = []) : (accept ch).run s = .ok (false, s) := by
  rw [accept, run_peek_bind, hs]
  rfl

theorem run_takeUpTo_of_stop {p : Char → Bool}
    (h : ∀ c, s.rest.head? = some (.plain c) → p c = false) (n : Nat) :
    (takeUpTo p n).run s = .ok ([], s) := by
  cases n with
  | zero => rfl
  | succ n =>
    rw [takeUpTo, run_peek_bind]
    split
    · rename_i c hc
      rw [if_neg (by simp [h c hc])]
      rfl
    · rfl

theorem carried_takeUpTo_nil {p : Char → Bool} (hp : p '$' = false) (h : Alike ends s s')
    (hs : s.rest = []) (n n' : Nat) : Carried ends (takeUpTo p n) (takeUpTo p n') s s' := by
  intro a t hrun
  rw [run_takeUpTo_of_stop (by simp [hs])] at hrun
  obtain ⟨rfl, rfl⟩ := Prod.mk.inj (Except.ok.inj hrun)
  refine ⟨.refl _, s', run_takeUpTo_of_stop (fun c hc => ?_) n', h⟩
  rw [h.rest, hs] at hc
  cases ends <;> simp [closing] at hc
  exact hc ▸ hp

/-- The limits are the same, or none of them can be reached. -/
theorem carried_takeUpTo {p : Char → Bool} (hp : p '$' = false) (n : Nat) :
    ∀ {s s' : Reading} {n' : Nat}, Alike ends s s' →
      n' = n ∨ s.rest.length ≤ n ∧ s'.rest.length ≤ n' →
      Carried ends (takeUpTo p n) (takeUpTo p n') s s' := by
  induction n with
  | zero =>
    rintro s s' n' h (rfl | ⟨hn, -⟩)
    · exact .pure h []
    · exact carried_takeUpTo_nil hp h (List.length_eq_zero_iff.1 (Nat.le_zero.1 hn)) _ _
  | succ n ih =>
    intro s s' n' h hn
    cases hs : s.rest with
    | nil => exact carried_takeUpTo_nil hp h hs _ _
    | cons tok rest =>
      obtain ⟨n', rfl⟩ : ∃ m, n' = m + 1 := by
        refine Nat.exists_eq_add_one_of_ne_zero fun hzero => ?_
        rw [h.length_eq, hs, List.length_cons] at hn
        omega
      unfold takeUpTo
      refine .peek_bind h (fun tok rest hs => ?_) fun hnil => absurd hnil (by simp [hs])
      cases tok with
      | plain c =>
        dsimp only
        split_ifs
        · refine .advance_bind h hs fun t t' ht _ htt' => ?_
          refine (ih htt' ?_).bind fun cs u u' _ hu => .pure hu (c :: cs)
          have hlength := congrArg List.length ht
          rw [List.length_cons] at hlength
          rw [h.length_eq] at hn
          rw [htt'.length_eq]
          omega
        · exact .pure h []
      | escape c => exact .pure h []
      | dangling => exact .pure h []

/-- More fuel than tokens is enough for a name. -/
theorem carried_takeName (close : Char) (what : String) (fuel : Nat) :
    ∀ {s s' : Reading} {fuel' : Nat} (acc : List Char), Alike ends s s' →
      s.rest.length < fuel → s'.rest.length < fuel' →
      Carried ends (takeName close what fuel acc) (takeName close what fuel' acc) s s' := by
  induction fuel with
  | zero => intro s s' fuel' acc _ hfuel; omega
  | succ fuel ih =>
    intro s s' fuel' acc h hfuel hfuel'
    obtain ⟨fuel', rfl⟩ := Nat.exists_eq_succ_of_ne_zero (Nat.ne_of_gt (Nat.zero_lt_of_lt hfuel'))
    unfold takeName
    refine .next_bind h (fun tok t t' hs hst htt' => ?_) fun _ b t => ?_
    · have hlength := congrArg List.length hs
      rw [List.length_cons] at hlength
      rw [h.length_eq] at hfuel'
      dsimp only
      split_ifs
      · exact .fail
      · exact .pure htt' acc
      · exact ih _ htt' (by omega) (by rw [htt'.length_eq]; omega)
    · dsimp only
      split_ifs <;> exact failAt_ne_ok

theorem carried_readName (close : Char) (what : String) (h : Alike ends s s') :
    Carried ends (readName close what) (readName close what) s s' :=
  .get_bind (carried_takeName close what _ [] h (Nat.lt_succ_self _) (Nat.lt_succ_self _))

/-! ## Something left unread -/

/-- Steps of reading that carry over, in the case `c` only if they leave something unread. -/
def CarriedIf {α : Type} (c : Prop) (ends : Bool) (m m' : Reader α) (s s' : Reading) : Prop :=
  ∀ a t, m.run s = .ok (a, t) → Later s t ∧
    ((c → t.rest ≠ []) → ∃ t', m'.run s' = .ok (a, t') ∧ Alike ends t t')

section

variable {c d : Prop}

theorem Carried.toIf (h : Carried ends m m' s s') : CarriedIf c ends m m' s s' :=
  fun a t hrun => ⟨(h a t hrun).1, fun _ => (h a t hrun).2⟩

theorem CarriedIf.bind_if (h : CarriedIf c ends m m' s s')
    (hf : ∀ a t t', m.run s = .ok (a, t) → Later s t → Alike ends t t' →
      CarriedIf c ends (f a) (f' a) t t') :
    CarriedIf c ends (m >>= f) (m' >>= f') s s' := by
  intro b u hrun
  rw [StateT.run_bind] at hrun
  obtain ⟨⟨a, t⟩, hm, hfa⟩ := bind_eq_ok.1 hrun
  obtain ⟨hst, hgo⟩ := h a t hm
  have htu : Later t u := (hf a t _ hm hst (.closed ends t) b u hfa).1
  refine ⟨hst.trans htu, fun hc => ?_⟩
  obtain ⟨t', hm', ht⟩ := hgo fun hcond => htu.rest_ne_nil (hc hcond)
  obtain ⟨u', hfa', hu⟩ := (hf a t t' hm hst ht b u hfa).2 hc
  refine ⟨u', ?_, hu⟩
  rw [StateT.run_bind, hm']
  exact hfa'

/-- What follows needs something that is left unread. -/
theorem CarriedIf.bind (h : CarriedIf c ends m m' s s')
    (hleft : ∀ a t b u, (f a).run t = .ok (b, u) → t.rest ≠ [])
    (hf : ∀ a t t', Later s t → Alike ends t t' → Carried ends (f a) (f' a) t t') :
    Carried ends (m >>= f) (m' >>= f') s s' := by
  intro b u hrun
  rw [StateT.run_bind] at hrun
  obtain ⟨⟨a, t⟩, hm, hfa⟩ := bind_eq_ok.1 hrun
  obtain ⟨hst, hgo⟩ := h a t hm
  obtain ⟨t', hm', ht⟩ := hgo fun _ => hleft a t b u hfa
  obtain ⟨htu, u', hfa', hu⟩ := hf a t t' hst ht b u hfa
  refine ⟨hst.trans htu, u', ?_, hu⟩
  rw [StateT.run_bind, hm']
  exact hfa'

theorem CarriedIf.mono (h : CarriedIf c ends m m' s s')
    (hcd : c → d) : CarriedIf d ends m m' s s' := fun a t hrun =>
  ⟨(h a t hrun).1, fun hd => (h a t hrun).2 (hd ∘ hcd)⟩

theorem CarriedIf.map (h : CarriedIf c ends m m' s s') (f : α → β) :
    CarriedIf c ends (m >>= fun a => pure (f a)) (m' >>= fun a => pure (f a)) s s' := by
  intro b t hrun
  rw [StateT.run_bind] at hrun
  obtain ⟨⟨a, t⟩, hm, hrun⟩ := bind_eq_ok.1 hrun
  obtain ⟨rfl, rfl⟩ := Prod.mk.inj (Except.ok.inj hrun)
  obtain ⟨hst, hleft⟩ := h a t hm
  refine ⟨hst, fun hc => ?_⟩
  obtain ⟨t', hm', ht⟩ := hleft hc
  refine ⟨t', ?_, ht⟩
  rw [StateT.run_bind, hm']
  rfl

end

end

end Outline.Regex

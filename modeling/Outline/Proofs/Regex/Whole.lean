import Mathlib.Data.List.Forall2
import Outline.Proofs.Regex.Opens
import Outline.Regex.Match

/-!
# Whole patterns between a caret and a dollar sign

**A pattern that does not open with switches is read in the same way between a caret and a dollar
sign** (`readPattern_framed`): its alternatives are the same but for places at the ends of a text
around them (`Framed`), and these **change no match of a whole text** (`FramedAll.runRow_eq`).

* `ChoiceStep`, `ChoiceFrames`: alternatives of a whole pattern, one after the other;
* `Framed`, `FramedAll`: rows and trees with places at the ends around them;
* `carriedTo_readRow_first`: the row that the caret joins;
* `Passes`: the checks on a whole tree.
-/

namespace Outline.Regex

variable {ends : Bool} {s s' t u : Reading} {fuel : Nat}

/-! ## Alternatives of the whole pattern -/

/-- The parts of a pattern with the given alternatives. -/
def alternatives : List (List Node) → List Node
  | [row] => row
  | rows => [.branch rows]

/-- One step of the alternatives of a whole pattern: the last one is read, or one of several. -/
inductive ChoiceStep (verbose : Bool) (fuel : Nat) (acc : List (List Node)) (s : Reading) :
    List Node → Reading → Prop
  | last {row : List Node} {t u : Reading}
      (hrow : (readRow verbose acc.isEmpty fuel []).run s = .ok (row, t))
      (haccept : (accept '|').run t = .ok (false, u)) :
      ChoiceStep verbose fuel acc s (alternatives (acc ++ [row])) u
  | more {row a : List Node} {t u v : Reading}
      (hrow : (readRow verbose acc.isEmpty fuel []).run s = .ok (row, t))
      (haccept : (accept '|').run t = .ok (true, u))
      (hrest : (readChoice (u.flags.contains 'x') true fuel (acc ++ [row])).run u = .ok (a, v)) :
      ChoiceStep verbose fuel acc s a v

theorem readChoice_succ (verbose : Bool) (fuel : Nat) (acc : List (List Node)) :
    readChoice verbose true (fuel + 1) acc = (do
      let row ← readRow verbose acc.isEmpty fuel []
      if ← accept '|' then
        readChoice ((← get).flags.contains 'x') true fuel (acc ++ [row])
      else return alternatives (acc ++ [row])) := by
  rcases acc with _ | ⟨r, _ | ⟨r', rs⟩⟩ <;> rfl

theorem run_readChoice_eq_ok {verbose : Bool} {acc : List (List Node)} {a : List Node} :
    (readChoice verbose true (fuel + 1) acc).run s = .ok (a, t) ↔
      ChoiceStep verbose fuel acc s a t := by
  rw [readChoice_succ]
  constructor
  · intro hrun
    rw [StateT.run_bind] at hrun
    obtain ⟨⟨row, u⟩, hrow, hrun⟩ := bind_eq_ok.1 hrun
    rw [StateT.run_bind] at hrun
    obtain ⟨⟨more, v⟩, haccept, hrun⟩ := bind_eq_ok.1 hrun
    cases more with
    | false =>
      obtain ⟨rfl, rfl⟩ := Prod.mk.inj (Except.ok.inj hrun)
      exact .last hrow haccept
    | true => exact .more hrow haccept hrun
  · rintro (⟨hrow, haccept⟩ | ⟨hrow, haccept, hrest⟩)
    · rw [StateT.run_bind, hrow, ok_bind, StateT.run_bind, haccept]
      rfl
    · rw [StateT.run_bind, hrow, ok_bind, StateT.run_bind, haccept]
      exact hrest

/-- A row with places around it that hold at the ends of a text. -/
def Framed (row row' : List Node) : Prop :=
  ∃ pre post, (pre = [] ∨ pre = [.anchor .lineStart]) ∧ (post = [] ∨ post = [.anchor .lineEnd]) ∧
    row' = pre ++ row ++ post

theorem Framed.refl (row : List Node) : Framed row row :=
  ⟨[], [], .inl rfl, .inl rfl, (List.append_nil row).symm⟩

theorem sealing_eq (ends : Bool) (t : Reading) :
    sealing ends t = [] ∨ sealing ends t = [.anchor .lineEnd] := by
  unfold sealing
  split
  · exact .inr rfl
  · exact .inl rfl

/-- Parts whose alternatives have places around them. -/
def FramedAll (a a' : List Node) : Prop :=
  ∃ rows rows', List.Forall₂ Framed rows rows' ∧ a = alternatives rows ∧ a' = alternatives rows'

/-- Steps of reading that carry over to others with a result in a relation to theirs; the others may
take the dollar sign in place of the end. -/
def CarriedTo (R : List Node → List Node → Prop) (ends : Bool) (m m' : Reader (List Node))
    (s s' : Reading) : Prop :=
  ∀ a t, m.run s = .ok (a, t) → Later s t ∧ (.dangling ∉ s.rest → ∃ a' t',
    m'.run s' = .ok (a', t') ∧ R a a' ∧ Alike (ends && !t.rest.isEmpty) t t')

/-- A bar behind a row is seen although a dollar sign may have been taken. -/
theorem accept_bar {b : Bool} {t' : Reading} (h : Alike (ends && !t.rest.isEmpty) t t')
    (hrun : (accept '|').run t = .ok (b, u)) :
    ∃ u', (accept '|').run t' = .ok (b, u') ∧
      Alike (if b then ends else ends && !u.rest.isEmpty) u u' := by
  obtain ⟨-, u', hrun', hu⟩ := carried_accept (by decide) h b u hrun
  refine ⟨u', hrun', ?_⟩
  cases b with
  | false =>
    obtain ⟨-, rfl⟩ := (run_accept_eq_ok hrun : _ ∧ _)
    exact hu
  | true =>
    have ht : t.rest = .plain '|' :: u.rest := run_accept_eq_ok hrun
    rwa [ht, List.isEmpty_cons, Bool.not_false, Bool.and_true] at hu

/-- A row behind a bar is read in the same way before a dollar sign. -/
theorem carriedTo_readRow {fuel' : Nat} (h : Alike ends s s')
    (hfuel : 2 * s.rest.length + 1 ≤ fuel) (hfuel' : 2 * s'.rest.length + 1 ≤ fuel') :
    CarriedTo Framed ends (readRow false false fuel []) (readRow false false fuel' []) s s' := by
  intro row t hrun
  obtain ⟨hst, hgo⟩ := (choiceCarries_and_rowFrames fuel).2 false [] [] h hfuel hfuel' rfl hrun
  refine ⟨hst, fun hdangling => ?_⟩
  obtain ⟨t', hrun', ht⟩ := hgo fun hor => absurd (hor.resolve_left nofun) hdangling
  exact ⟨_, t', hrun', ⟨[], _, .inl rfl, sealing_eq ends t, rfl⟩, ht⟩

/-- **Further alternatives** of a whole pattern without switches are read in the same way before a
dollar sign. -/
def ChoiceFrames (fuel : Nat) : Prop :=
  ∀ {ends : Bool} {acc acc' : List (List Node)} {s s' : Reading} {fuel' : Nat}, acc ≠ [] →
    List.Forall₂ Framed acc acc' → Alike ends s s' → s.flags = [] → 2 * s.rest.length + 2 ≤ fuel →
    2 * s.rest.length + 4 ≤ fuel' →
    CarriedTo FramedAll ends (readChoice false true fuel acc)
      (readChoice false true fuel' acc') s s'

theorem length_closing_le (ends : Bool) : (closing ends).length ≤ 1 := by
  cases ends <;> decide

theorem ChoiceFrames.readChoice (h : ChoiceFrames fuel) {acc acc' : List (List Node)}
    {fuel' : Nat} (hframed : List.Forall₂ Framed acc acc') (hflags : s.flags = [])
    (hrow : CarriedTo Framed ends (readRow false acc.isEmpty fuel [])
      (readRow false acc'.isEmpty fuel' []) s s')
    (hfuel : 2 * s.rest.length ≤ fuel) (hfuel' : 2 * s.rest.length + 2 ≤ fuel') :
    CarriedTo FramedAll ends (readChoice false true (fuel + 1) acc)
      (readChoice false true (fuel' + 1) acc') s s' := by
  intro a t hrun
  rcases run_readChoice_eq_ok.1 hrun with ⟨hfirst, haccept⟩ | ⟨hfirst, haccept, hrest⟩
  · rename_i row u
    obtain ⟨hsu, hgo⟩ := hrow row u hfirst
    refine ⟨hsu.trans (later_accept haccept), fun hdangling => ?_⟩
    obtain ⟨row', u', hfirst', hrowframed, hu⟩ := hgo hdangling
    obtain ⟨t', haccept', ht⟩ := accept_bar hu haccept
    exact ⟨_, t', run_readChoice_eq_ok.2 (.last hfirst' haccept'),
      ⟨_, _, List.rel_append hframed (.cons hrowframed .nil), rfl, rfl⟩, ht⟩
  · rename_i row u v
    obtain ⟨hsu, hgo⟩ := hrow row u hfirst
    have hsv := hsu.trans (later_accept haccept)
    have hv : v.flags = [] := hsv.flags.trans hflags
    have hlength := congrArg List.length (run_accept_eq_ok haccept : u.rest = _)
    rw [List.length_cons] at hlength
    have hle := hsu.length_le
    have hne : acc ++ [row] ≠ [] := List.append_ne_nil_of_right_ne_nil _ (List.cons_ne_nil _ _)
    have hverbose : v.flags.contains 'x' = false := by
      rw [hv]
      rfl
    rw [hverbose] at hrest
    obtain ⟨hvt, -⟩ := h hne (List.forall₂_same.2 fun r _ => .refl r) (.closed false v) hv
      (by omega) (Nat.le_refl _) a t hrest
    refine ⟨hsv.trans hvt, fun hdangling => ?_⟩
    obtain ⟨row', u', hfirst', hrowframed, hu⟩ := hgo hdangling
    obtain ⟨v', haccept', hv'⟩ := accept_bar hu haccept
    have hv'' : v'.flags = [] := hv'.flags.trans hv
    have hleft : 2 * v.rest.length + 4 ≤ fuel' := by omega
    obtain ⟨-, hgo'⟩ := h hne (List.rel_append hframed (.cons hrowframed .nil)) hv' hv (by omega)
      hleft a t hrest
    obtain ⟨a', t', hrest', hall, ht⟩ := hgo' fun hmem => hdangling (hsv.rest.subset hmem)
    refine ⟨a', t', run_readChoice_eq_ok.2 (.more hfirst' haccept' ?_), hall, ht⟩
    rw [hv'']
    exact hrest'

theorem choiceFrames (fuel : Nat) : ChoiceFrames fuel := by
  induction fuel with
  | zero => intro ends acc acc' s s' fuel' _ _ _ _ hfuel; omega
  | succ fuel ih =>
    intro ends acc acc' s s' fuel' hacc hframed h hflags hfuel hfuel'
    obtain ⟨fuel', rfl⟩ := Nat.exists_eq_add_one_of_ne_zero (by omega : fuel' ≠ 0)
    have hempty : acc.isEmpty = false := List.isEmpty_eq_false_iff.2 hacc
    have hempty' : acc'.isEmpty = false := by
      cases hframed with
      | nil => exact absurd rfl hacc
      | cons => rfl
    have hlength := h.length_eq
    have hclosing := length_closing_le ends
    refine ih.readChoice hframed hflags ?_ (by omega) (by omega)
    rw [hempty, hempty']
    exact carriedTo_readRow h (by omega) (by omega)

/-! ## The first row -/

theorem run_readRow_caret (first first' : Bool) {rest : List Tok} {a : List Node}
    (hs : s.rest = .plain '^' :: rest) :
    (readRow false first (fuel + 1) []).run s = .ok (a, t) ↔ rest.head? ≠ some .dangling ∧
      (readRow false first' fuel [.anchor .lineStart]).run
        { s with rest := rest, place := s.place + 1 } = .ok (a, t) := by
  have hpiece : ∀ alone u, (readPiece false alone fuel (.plain '^')).run u =
      .ok (.nodes [.anchor .lineStart], u) := fun _ _ => rfl
  have hne : [Node.anchor .lineStart] ≠ [] := List.cons_ne_nil _ _
  rw [run_readRow_eq_ok]
  constructor
  · rintro (hs' | ⟨hs', hends⟩ | ⟨hs', -⟩ | ⟨hs', -, -, hadvance, hpiece', hadd, hrest⟩)
    · rw [hs] at hs'
      cases hs'
    · obtain ⟨rfl, -⟩ := List.cons.inj (hs.symm.trans hs')
      exact absurd hends (by decide)
    · rw [hs] at hs'
      cases hs'
    · obtain ⟨rfl, rfl⟩ := List.cons.inj (hs.symm.trans hs')
      obtain ⟨hhead, rfl⟩ := (run_advance_eq_ok hs).1 hadvance
      rw [hpiece] at hpiece'
      obtain ⟨rfl, rfl⟩ := Prod.mk.inj (Except.ok.inj hpiece')
      obtain ⟨rfl, rfl⟩ := Prod.mk.inj (Except.ok.inj hadd)
      exact ⟨hhead, run_readRow_of_ne_nil first' fuel hne hrest⟩
  · rintro ⟨hhead, hrest⟩
    exact .part hs (by decide) nofun ((run_advance_eq_ok hs).2 ⟨hhead, rfl⟩) (hpiece _ _) rfl
      (run_readRow_of_ne_nil first fuel hne hrest)

/-- What stands before a pattern that begins at a caret. -/
def opening (starts : Bool) : List Tok := if starts then [.plain '^'] else []

theorem head?_closing {ts : List Tok} (h : ts.head? ≠ some .dangling) :
    (ts ++ closing ends).head? ≠ some .dangling := by
  cases ts with
  | nil => cases ends <;> nofun
  | cons => exact h

/-- **The first row** of a pattern that does not open with switches is read in the same way behind a
caret. -/
theorem carriedTo_readRow_first {ts : List Tok} {starts : Bool} {fuel' : Nat} (hopens : ¬ Opens ts)
    (hcaret : starts = false → ts.head? = some (.plain '^')) (hhead : ts.head? ≠ some .dangling)
    (hfuel : 2 * ts.length + 1 ≤ fuel)
    (hfuel' : 2 * (opening starts ++ ts ++ closing ends).length + 1 ≤ fuel') :
    CarriedTo Framed ends (readRow false true fuel []) (readRow false true fuel' [])
      { rest := ts, place := 0 } { rest := opening starts ++ ts ++ closing ends, place := 0 } := by
  intro row t hrun
  have hrun' := run_readRow_of_not_opens fuel rfl hopens hfuel hrun
  rw [List.length_append, List.length_append] at hfuel'
  obtain ⟨-, hrow⟩ := choiceCarries_and_rowFrames fuel
  obtain ⟨fuel', rfl⟩ := Nat.exists_eq_add_one_of_ne_zero (by omega : fuel' ≠ 0)
  cases starts with
  | true =>
    have halike : Alike ends { rest := ts, place := 0 } { rest := ts ++ closing ends, place := 1 } :=
      ⟨rfl, rfl, rfl, rfl, rfl, rfl⟩
    have hfuel'' : 2 * (ts ++ closing ends).length + 1 ≤ fuel' := by
      rw [List.length_append]
      have hone : (opening true).length = 1 := rfl
      omega
    obtain ⟨hst, hgo⟩ := hrow false [.anchor .lineStart] [] halike hfuel hfuel'' rfl hrun'
    refine ⟨hst, fun hdangling => ?_⟩
    obtain ⟨t', hrest, ht⟩ := hgo fun hor => absurd (hor.resolve_left nofun) hdangling
    refine ⟨_, t', (run_readRow_caret true false rfl).2 ⟨?_, hrest⟩,
      ⟨_, _, .inr rfl, sealing_eq ends t, rfl⟩, ht⟩
    exact head?_closing hhead
  | false =>
    have halike : Alike ends { rest := ts, place := 0 } { rest := ts ++ closing ends, place := 0 } :=
      ⟨rfl, rfl, rfl, rfl, rfl, rfl⟩
    have hfuel'' : 2 * (ts ++ closing ends).length + 1 ≤ fuel' + 1 := by
      rw [List.length_append]
      omega
    obtain ⟨hst, hgo⟩ := carriedTo_readRow halike hfuel hfuel'' row t hrun'
    refine ⟨hst, fun hdangling => ?_⟩
    obtain ⟨row', t', hrest, hframed, ht⟩ := hgo hdangling
    obtain ⟨rest, rfl⟩ := List.head?_eq_some_iff.1 (hcaret rfl)
    have hcarets := (run_readRow_caret false false rfl).1 hrest
    exact ⟨row', t', (run_readRow_caret true false rfl).2 hcarets, hframed, ht⟩

/-! ## Checks -/

theorem seqFault?_append (groups : List (Option (Nat × Nat))) (f : Flags) (ms ns : List Node) :
    seqFault? groups f (ms ++ ns) = none ↔
      seqFault? groups f ms = none ∧ seqFault? groups f ns = none := by
  induction ms with
  | nil => simp [seqFault?]
  | cons m ms ih =>
    rw [List.cons_append, seqFault?, seqFault?]
    cases hfault : m.fault? groups f with
    | some e => simp
    | none => exact ih

theorem Framed.seqFault?_eq_none {groups : List (Option (Nat × Nat))} {f : Flags}
    {row row' : List Node} (h : Framed row row') (hrow : seqFault? groups f row = none) :
    seqFault? groups f row' = none := by
  obtain ⟨pre, post, hpre, hpost, rfl⟩ := h
  rw [seqFault?_append, seqFault?_append]
  refine ⟨⟨?_, hrow⟩, ?_⟩
  · rcases hpre with rfl | rfl <;> rfl
  · rcases hpost with rfl | rfl <;> rfl

theorem branchFault?_eq_none {groups : List (Option (Nat × Nat))} {f : Flags}
    {rows rows' : List (List Node)} (h : List.Forall₂ Framed rows rows')
    (hrows : branchFault? groups f rows = none) : branchFault? groups f rows' = none := by
  induction h with
  | nil => rfl
  | @cons row row' rows rows' hrow _ ih =>
    rw [branchFault?] at hrows ⊢
    cases hfault : seqFault? groups f row with
    | some e =>
      rw [hfault] at hrows
      cases hrows
    | none =>
      rw [hfault] at hrows
      rw [hrow.seqFault?_eq_none hfault]
      exact ih hrows

theorem FramedAll.cases {a a' : List Node} (h : FramedAll a a') : Framed a a' ∨
    ∃ rows rows', List.Forall₂ Framed rows rows' ∧ a = [.branch rows] ∧ a' = [.branch rows'] := by
  obtain ⟨rows, rows', hrows, rfl, rfl⟩ := h
  cases hrows with
  | nil => exact .inr ⟨_, _, .nil, rfl, rfl⟩
  | cons hrow hrest =>
    cases hrest with
    | nil => exact .inl hrow
    | cons hrow' hrest => exact .inr ⟨_, _, .cons hrow (.cons hrow' hrest), rfl, rfl⟩

theorem FramedAll.seqFault?_eq_none {groups : List (Option (Nat × Nat))} {f : Flags}
    {a a' : List Node} (h : FramedAll a a') (ha : seqFault? groups f a = none) :
    seqFault? groups f a' = none := by
  obtain h | ⟨rows, rows', hrows, rfl, rfl⟩ := h.cases
  · exact h.seqFault?_eq_none ha
  · have hbranch : ∀ options, seqFault? groups f [.branch options] = none ↔
        branchFault? groups f options = none := by
      intro options
      have hnode : (Node.branch options).fault? groups f = branchFault? groups f options := rfl
      rw [seqFault?, hnode]
      cases branchFault? groups f options with
      | some e => simp
      | none => simp [seqFault?]
    rw [hbranch] at ha ⊢
    exact branchFault?_eq_none hrows ha

/-! ## Matching -/

/-- The end of a match of the whole text. -/
def atEnd (text : Array Char) : Step := fun c => if c.place == text.size then some c else none

theorem runRow_append (text : Array Char) (f : Flags) (ms ns : List Node) (k : Step) :
    runRow text f (ms ++ ns) k = runRow text f ms (runRow text f ns k) := by
  induction ms with
  | nil => rw [List.nil_append, runRow]
  | cons m ms ih => rw [List.cons_append, runRow, runRow, ih]

theorem holds_lineEnd (f : Flags) (text : Array Char) :
    Anchor.lineEnd.holds f text text.size = true := by
  simp only [Anchor.holds, beq_self_eq_true, Bool.true_or]

theorem holds_lineStart (f : Flags) (text : Array Char) :
    Anchor.lineStart.holds f text 0 = true := by
  simp only [Anchor.holds, beq_self_eq_true, Bool.true_or]

theorem runRow_lineEnd (text : Array Char) (f : Flags) :
    runRow text f [.anchor .lineEnd] (atEnd text) = atEnd text := by
  funext c
  rw [runRow, runRow, Node.run]
  dsimp only [atEnd]
  by_cases hend : (c.place == text.size) = true
  · rw [eq_of_beq hend, if_pos (holds_lineEnd f text)]
  · rw [if_neg hend, ite_self]

theorem runRow_lineStart (text : Array Char) (f : Flags) (k : Step) {c : Cursor}
    (hc : c.place = 0) : runRow text f [.anchor .lineStart] k c = k c := by
  rw [runRow, runRow, Node.run]
  dsimp only
  rw [hc, if_pos (holds_lineStart f text)]

theorem Framed.runRow_eq {row row' : List Node} (h : Framed row row') (text : Array Char)
    (f : Flags) {c : Cursor} (hc : c.place = 0) :
    runRow text f row' (atEnd text) c = runRow text f row (atEnd text) c := by
  obtain ⟨pre, post, hpre, hpost, rfl⟩ := h
  have hend : runRow text f post (atEnd text) = atEnd text := by
    rcases hpost with rfl | rfl
    · rw [runRow]
    · exact runRow_lineEnd text f
  rw [runRow_append, hend, runRow_append]
  rcases hpre with rfl | rfl
  · rw [runRow]
  · exact runRow_lineStart text f _ hc

theorem runOptions_eq {rows rows' : List (List Node)} (h : List.Forall₂ Framed rows rows')
    (text : Array Char) (f : Flags) {c : Cursor} (hc : c.place = 0) :
    runOptions text f rows' (atEnd text) c = runOptions text f rows (atEnd text) c := by
  induction h with
  | nil => rfl
  | cons hrow _ ih =>
    rw [runOptions, runOptions]
    dsimp only
    rw [hrow.runRow_eq text f hc, ih]

/-- **Places at the ends change no match of a whole text.** -/
theorem FramedAll.runRow_eq {a a' : List Node} (h : FramedAll a a') (text : Array Char)
    (f : Flags) {c : Cursor} (hc : c.place = 0) :
    runRow text f a' (atEnd text) c = runRow text f a (atEnd text) c := by
  obtain h | ⟨rows, rows', hrows, rfl, rfl⟩ := h.cases
  · exact h.runRow_eq text f hc
  · rw [runRow, runRow, runRow, runRow, Node.run, Node.run]
    exact runOptions_eq hrows text f hc

/-! ## Whole patterns -/

/-- What is checked behind the last alternative. -/
def checkWhole (nodes : List Node) : Reader (List Node) := do
  let s ← get
  if s.flags.contains 'a' && s.flags.contains 'u' then throw .clash
  if (← peek).isSome then failAt "unbalanced parenthesis"
  match s.conditions.find? (fun c => s.widths.length + 1 ≤ c.1) with
  | some (g, p) => throw (.malformed ("invalid group reference " ++ toString g) (some p))
  | none => pure ()
  match seqFault? s.widths (({} : Flags).change s.flags []) nodes with
  | some e => throw (.malformed e none)
  | none => return nodes

theorem readPattern_eq (size : Nat) : readPattern size = (do
    if (← peek) = some .dangling then
      throw (.malformed "bad escape (end of pattern)" (some 0))
    readChoice false true (2 * size + 4) [] >>= checkWhole) := rfl

/-- A tree that passes the checks behind the last alternative. -/
structure Passes (nodes : List Node) (s : Reading) : Prop where
  kinds : ¬ (s.flags.contains 'a' && s.flags.contains 'u') = true
  rest : s.rest = []
  conditions : ∀ c ∈ s.conditions, ¬ s.widths.length + 1 ≤ c.1
  fault : seqFault? s.widths (({} : Flags).change s.flags []) nodes = none

theorem run_checkWhole_eq_ok {nodes a : List Node} :
    (checkWhole nodes).run s = .ok (a, t) ↔ Passes nodes s ∧ a = nodes ∧ t = s := by
  unfold checkWhole
  rw [StateT.run_bind, StateT.run_get, pure_bind]
  dsimp only
  by_cases hkinds : (s.flags.contains 'a' && s.flags.contains 'u') = true
  · rw [if_pos hkinds]
    exact iff_of_false (by rintro ⟨⟩) fun h => h.1.kinds hkinds
  rw [if_neg hkinds, run_peek_bind]
  by_cases hrest : s.rest = []
  swap
  · obtain ⟨tok, rest, hs⟩ := List.exists_cons_of_ne_nil hrest
    rw [hs]
    exact iff_of_false (by rintro ⟨⟩) fun h => hrest h.1.rest
  rw [hrest, List.head?_nil, Option.isSome_none, if_neg Bool.false_ne_true]
  cases hfind : s.conditions.find? (fun c => s.widths.length + 1 ≤ c.1) with
  | some c =>
    refine iff_of_false (by rintro ⟨⟩) fun h => ?_
    have hc := List.find?_some hfind
    exact h.1.conditions c (List.mem_of_find?_eq_some hfind) (of_decide_eq_true hc)
  | none =>
    dsimp only
    cases hfault : seqFault? s.widths (({} : Flags).change s.flags []) nodes with
    | some e =>
      refine iff_of_false (by rintro ⟨⟩) fun h => ?_
      rw [h.1.fault] at hfault
      cases hfault
    | none =>
      rw [List.find?_eq_none] at hfind
      refine ⟨fun h => ?_, ?_⟩
      · obtain ⟨rfl, rfl⟩ := Prod.mk.inj (Except.ok.inj h)
        exact ⟨⟨hkinds, hrest, fun c hc h => hfind c hc (decide_eq_true h), hfault⟩, rfl, rfl⟩
      · rintro ⟨-, rfl, rfl⟩
        rfl

/-- **A pattern that does not open with switches is read in the same way** between a caret and a
dollar sign. -/
theorem readPattern_framed (ends : Bool) {ts : List Tok} {starts : Bool} {nodes : List Node}
    (hopens : ¬ Opens ts) (hcaret : starts = false → ts.head? = some (.plain '^'))
    (hrun : (readPattern ts.length).run { rest := ts, place := 0 } = .ok (nodes, t)) :
    .dangling ∉ ts ∧ t.flags = [] ∧ ∃ nodes' t',
      (readPattern (opening starts ++ ts ++ closing ends).length).run
        { rest := opening starts ++ ts ++ closing ends, place := 0 } = .ok (nodes', t') ∧
      FramedAll nodes nodes' ∧ t'.flags = [] := by
  rw [readPattern_eq, run_peek_bind] at hrun
  by_cases hhead : ts.head? = some .dangling
  · rw [if_pos hhead] at hrun
    cases hrun
  rw [if_neg hhead, StateT.run_bind] at hrun
  obtain ⟨⟨a, u⟩, hchoice, hcheck⟩ := bind_eq_ok.1 hrun
  obtain ⟨hpasses, rfl, rfl⟩ := run_checkWhole_eq_ok.1 hcheck
  have hlength : ts.length ≤ (opening starts ++ ts ++ closing ends).length := by
    rw [List.length_append, List.length_append]
    omega
  have hfirst := carriedTo_readRow_first hopens hcaret hhead
    (Nat.le_add_right (2 * ts.length + 1) 2)
    (Nat.le_add_right (2 * (opening starts ++ ts ++ closing ends).length + 1) 2)
  obtain ⟨hst, hgo⟩ := ChoiceFrames.readChoice (choiceFrames _) .nil rfl hfirst
    (by dsimp only; omega) (by dsimp only; omega) nodes t hchoice
  have hdangling : .dangling ∉ ts := fun hmem => by
    obtain ⟨hleft, -⟩ := hst.guarded ⟨hmem, hhead⟩
    rw [hpasses.rest] at hleft
    cases hleft
  obtain ⟨nodes', t', hchoice', hframed, ht⟩ := hgo hdangling
  have hflags : t.flags = [] := hst.flags
  have hflags' : t'.flags = [] := ht.flags.trans hflags
  refine ⟨hdangling, hflags, nodes', t', ?_, hframed, hflags'⟩
  have hpasses' : Passes nodes' t' := {
    kinds := by rw [hflags']; decide
    rest := by rw [ht.rest, hpasses.rest, List.isEmpty_nil, Bool.not_true, Bool.and_false]; rfl
    conditions := fun c hc => by
      have hmem : c.1 ∈ t.conditions.map Prod.fst := ht.conditions ▸ List.mem_map_of_mem hc
      obtain ⟨d, hd, hdc⟩ := List.mem_map.1 hmem
      rw [ht.widths, ← hdc]
      exact hpasses.conditions d hd
    fault := by
      rw [ht.widths, ht.flags]
      exact hframed.seqFault?_eq_none hpasses.fault }
  have hhead' : (opening starts ++ ts ++ closing ends).head? ≠ some .dangling := by
    cases starts with
    | true => nofun
    | false => exact head?_closing hhead
  rw [readPattern_eq, run_peek_bind, if_neg hhead', StateT.run_bind, hchoice', ok_bind]
  exact run_checkWhole_eq_ok.2 ⟨hpasses', rfl, rfl⟩

end Outline.Regex

import Outline.Expr.Eval
import Outline.Proofs.Expr.Blame

/-!
# Expressions without a value

An expression that can be written has a value unless its evaluation comes to a part that is stuck:
a call or a sum with too long a number among its operands, a call with a pattern that cannot be used,
or a sum of a whole number and a decimal beyond the range of decimals (`Derives.eval_eq_error_iff`).

* `Expr.Reaches`: the parts that an evaluation comes to;
* `Expr.Stuck`: parts whose operands have values and that have none themselves;
* `Expr.Raises`: evaluations that come to a stuck part.
-/

namespace Outline

variable {env : Variable → Value} {fault : Fault}

/-! ## Functions at texts -/

/-- The pattern that a function compiles when it is called with texts. -/
def Builtin.pattern? : Builtin → List String → Option String
  | .match_, [_, p] | .trimPrefix, [_, p] => some p
  | .trimSuffix, [_, p] => some ("(?:" ++ p ++ ")$")
  | _, _ => none

/-- A pattern that cannot be used, and not for being malformed. -/
def Unusable (pattern : String) (fault : Fault) : Prop :=
  ∃ e, Regex.compile pattern = .error e ∧ e.fault? = some fault

/-- A pattern that is malformed. -/
def Malformed (pattern : String) : Prop :=
  ∃ what place, Regex.compile pattern = .error (.malformed what place)

theorem usablePattern_eq_error_iff {pattern : String} :
    usablePattern pattern = .error fault ↔ Unusable pattern fault := by
  unfold usablePattern Unusable
  cases Regex.compile pattern with
  | ok p => simp
  | error e => cases hfault : e.fault? <;> simp [hfault]

theorem Malformed.usablePattern {pattern : String} (h : Malformed pattern) :
    usablePattern pattern = .ok none := by
  obtain ⟨what, place, h⟩ := h
  rw [Outline.usablePattern, h]
  rfl

theorem matchesIn_eq_error_iff {s pattern : String} :
    matchesIn s pattern = .error fault ↔ Unusable pattern fault := by
  rw [matchesIn, bind_eq_error_iff, usablePattern_eq_error_iff, or_iff_left]
  rintro ⟨_ | p, -, h⟩ <;> cases h

theorem dropMatchAtStart_eq_error_iff {s pattern : String} :
    dropMatchAtStart s pattern = .error fault ↔ Unusable pattern fault := by
  rw [dropMatchAtStart, bind_eq_error_iff, usablePattern_eq_error_iff, or_iff_left]
  rintro ⟨_ | p, -, h⟩
  · cases h
  · dsimp only at h
    split at h <;> cases h

theorem dropMatchAtEnd_eq_error_iff {s pattern : String} :
    dropMatchAtEnd s pattern = .error fault ↔ Unusable ("(?:" ++ pattern ++ ")$") fault := by
  rw [dropMatchAtEnd, bind_eq_error_iff, usablePattern_eq_error_iff, or_iff_left]
  rintro ⟨_ | p, -, h⟩
  · cases h
  · dsimp only at h
    split at h <;> cases h

/-- **With the right number of texts, a function fails only for its pattern.** -/
theorem Builtin.applyTexts_eq_error_iff {f : Builtin} {texts : List String}
    (harity : texts.length = f.arity) :
    f.applyTexts texts = .error fault ↔ ∃ p, f.pattern? texts = some p ∧ Unusable p fault := by
  have hnone : ∀ {v : Value}, (Except.ok v : Except Fault Value) = .error fault ↔
      ∃ p, (none : Option String) = some p ∧ Unusable p fault := by simp
  cases f with
  | slug | kebab | lower | upper | trim =>
    obtain ⟨s, rfl⟩ := List.length_eq_one_iff.1 harity
    exact hnone
  | hasPrefix | hasSuffix | contains =>
    obtain ⟨s, p, rfl⟩ := List.length_eq_two.1 harity
    exact hnone
  | replace =>
    obtain ⟨s, old, new, rfl⟩ := List.length_eq_three.1 harity
    exact hnone
  | match_ =>
    obtain ⟨s, p, rfl⟩ := List.length_eq_two.1 harity
    simp [applyTexts, pattern?, map_eq_error_iff, matchesIn_eq_error_iff]
  | trimPrefix =>
    obtain ⟨s, p, rfl⟩ := List.length_eq_two.1 harity
    simp [applyTexts, pattern?, map_eq_error_iff, dropMatchAtStart_eq_error_iff]
  | trimSuffix =>
    obtain ⟨s, p, rfl⟩ := List.length_eq_two.1 harity
    simp [applyTexts, pattern?, map_eq_error_iff, dropMatchAtEnd_eq_error_iff]

/-- What a function gives for a text if its pattern is malformed. -/
def Builtin.fallback : Builtin → String → Value
  | .match_, _ => .bool false
  | _, s => .str s

/-- **Malformed patterns are never matched and leave texts as they are.** -/
theorem Builtin.applyTexts_of_malformed {f : Builtin} {s t p : String}
    (hp : f.pattern? [s, t] = some p) (h : Malformed p) :
    f.applyTexts [s, t] = .ok (f.fallback s) := by
  cases f <;> cases hp <;>
    simp [applyTexts, fallback, matchesIn, dropMatchAtStart, dropMatchAtEnd, h.usablePattern] <;> rfl

/-! ## Functions at values -/

/-- Values are written one by one, and too long a number among them is a fault. -/
theorem mapM_text? (vs : List Value) : vs.mapM Value.text? =
    if vs.all Value.writable then .ok (vs.map Value.text) else .error (.tooManyDigits none) := by
  induction vs with
  | nil => rfl
  | cons v vs ih =>
    rw [List.mapM_cons, ih, Value.text?, List.all_cons]
    cases v.writable with
    | false => rfl
    | true => cases vs.all Value.writable <;> rfl

/-- A call that has no value though its operands have values. -/
inductive Builtin.Stuck (f : Builtin) (vs : List Value) : Fault → Prop
  | unwritten (h : ∃ v ∈ vs, v.writable = false) : Stuck f vs (.tooManyDigits none)
  | unusable {p : String} {fault : Fault} (hwritten : ∀ v ∈ vs, v.writable = true)
      (hp : f.pattern? (vs.map Value.text) = some p) (h : Unusable p fault) : Stuck f vs fault

theorem Builtin.apply_eq_error_iff {f : Builtin} {vs : List Value} (harity : vs.length = f.arity) :
    f.apply vs = .error fault ↔ f.Stuck vs fault := by
  have happly : f.apply vs = vs.mapM Value.text? >>= f.applyTexts := by
    rw [Builtin.apply, if_neg (not_not.2 harity)]
  rw [happly, mapM_text?]
  cases hall : vs.all Value.writable with
  | true =>
    have hwritten := List.all_eq_true.1 hall
    refine Iff.trans (Builtin.applyTexts_eq_error_iff ((List.length_map _).trans harity)) ?_
    constructor
    · rintro ⟨p, hp, h⟩
      exact .unusable hwritten hp h
    · rintro (⟨v, hv, h⟩ | ⟨-, hp, h⟩)
      · rw [hwritten v hv] at h
        cases h
      · exact ⟨_, hp, h⟩
  | false =>
    obtain ⟨v, hv, hlong⟩ := List.all_eq_false.1 hall
    constructor
    · intro h
      cases h
      exact .unwritten ⟨v, hv, Bool.eq_false_iff.2 hlong⟩
    · rintro (h | ⟨hwritten, -, -⟩)
      · rfl
      · exact absurd (hwritten v hv) hlong

/-! ## Sums -/

/-- A number, other than a truth value. -/
def Value.IsNumber : Value → Prop
  | .int _ | .float _ => True
  | _ => False

/-- A sum that has no value though its operands have values. -/
inductive StuckSum : Value → Value → Fault → Prop
  | unwritten {x y : Value} (hnumbers : ¬(x.IsNumber ∧ y.IsNumber))
      (h : x.writable = false ∨ y.writable = false) : StuckSum x y (.tooManyDigits none)
  | beyondLeft {n : Int} {f : Float} (h : floatOfInt? n = none) :
      StuckSum (.int n) (.float f) .outOfRange
  | beyondRight {n : Int} {f : Float} (h : floatOfInt? n = none) :
      StuckSum (.float f) (.int n) .outOfRange

theorem addValues_of_not_numbers {x y : Value} (h : ¬(x.IsNumber ∧ y.IsNumber)) :
    addValues x y = x.text? >>= fun s => y.text? >>= fun t => .ok (.str (s ++ t)) := by
  unfold addValues
  split
  · exact absurd ⟨trivial, trivial⟩ h
  · exact absurd ⟨trivial, trivial⟩ h
  · exact absurd ⟨trivial, trivial⟩ h
  · exact absurd ⟨trivial, trivial⟩ h
  · rfl

theorem floatOfInt_eq_error_iff {n : Int} :
    floatOfInt n = .error fault ↔ floatOfInt? n = none ∧ fault = .outOfRange := by
  unfold floatOfInt
  cases floatOfInt? n <;> simp [eq_comm]

theorem addValues_eq_error_iff {x y : Value} :
    addValues x y = .error fault ↔ StuckSum x y fault := by
  by_cases hnumbers : x.IsNumber ∧ y.IsNumber
  · cases x <;> cases y <;> simp only [Value.IsNumber, false_and, and_false] at hnumbers
    case int.int m n =>
      refine iff_of_false (fun h => nomatch h) fun hstuck => ?_
      cases hstuck with
      | unwritten hnot => exact hnot ⟨trivial, trivial⟩
    case float.float f g =>
      refine iff_of_false (fun h => nomatch h) fun hstuck => ?_
      cases hstuck with
      | unwritten hnot => exact hnot ⟨trivial, trivial⟩
    case int.float n f =>
      rw [addValues, bind_pure_eq_error_iff, floatOfInt_eq_error_iff]
      refine ⟨fun ⟨h, hfault⟩ => hfault ▸ .beyondLeft h, fun hstuck => ?_⟩
      cases hstuck with
      | unwritten hnot => exact absurd ⟨trivial, trivial⟩ hnot
      | beyondLeft h => exact ⟨h, rfl⟩
    case float.int f n =>
      rw [addValues, bind_pure_eq_error_iff, floatOfInt_eq_error_iff]
      refine ⟨fun ⟨h, hfault⟩ => hfault ▸ .beyondRight h, fun hstuck => ?_⟩
      cases hstuck with
      | unwritten hnot => exact absurd ⟨trivial, trivial⟩ hnot
      | beyondRight h => exact ⟨h, rfl⟩
  · rw [addValues_of_not_numbers hnumbers, Value.text?, Value.text?]
    constructor
    · intro h
      cases hx : x.writable with
      | false =>
        rw [hx] at h
        cases h
        exact .unwritten hnumbers (.inl hx)
      | true =>
        cases hy : y.writable with
        | false =>
          rw [hx, hy] at h
          cases h
          exact .unwritten hnumbers (.inr hy)
        | true =>
          rw [hx, hy] at h
          cases h
    · rintro (⟨-, hx | hy⟩ | - | -)
      · rw [hx]
        rfl
      · rw [hy]
        cases x.writable <;> rfl
      · exact absurd ⟨trivial, trivial⟩ hnumbers
      · exact absurd ⟨trivial, trivial⟩ hnumbers

/-! ## Evaluation -/

/-- Whether an operator decides by its left operand alone. -/
def Operator.decides : Operator → Value → Bool
  | .and, v => !v.isTrue
  | .or, v => v.isTrue
  | _, _ => false

namespace Expr

/-- **The evaluation of a tree comes to a part of it**: the parts before it have values, and no
operator has decided without it. -/
inductive Reaches (env : Variable → Value) : Expr → Expr → Prop
  | here (e : Expr) : Reaches env e e
  | argument {f : Builtin} {before after : List Expr} {a e : Expr} {vs : List Value}
      (hbefore : evalAll env before = .ok vs) (h : Reaches env a e) :
      Reaches env (.call f (before ++ a :: after)) e
  | negated {a e : Expr} (h : Reaches env a e) : Reaches env (.not a) e
  | left {o : Operator} {a b e : Expr} (h : Reaches env a e) : Reaches env (.binary o a b) e
  | right {o : Operator} {a b e : Expr} {v : Value} (ha : a.eval env = .ok v)
      (hv : o.decides v = false) (h : Reaches env b e) : Reaches env (.binary o a b) e

/-- **A part whose operands have values and that has none itself.** -/
inductive Stuck (env : Variable → Value) : Expr → Fault → Prop
  | call {f : Builtin} {args : List Expr} {vs : List Value} {fault : Fault}
      (hargs : evalAll env args = .ok vs) (h : f.Stuck vs fault) : Stuck env (.call f args) fault
  | sum {a b : Expr} {x y : Value} {fault : Fault} (ha : a.eval env = .ok x)
      (hb : b.eval env = .ok y) (h : StuckSum x y fault) : Stuck env (.binary .plus a b) fault

/-- The evaluation of a tree comes to a stuck part. -/
def Raises (env : Variable → Value) (e : Expr) (fault : Fault) : Prop :=
  ∃ part, e.Reaches env part ∧ part.Stuck env fault

variable {a b e : Expr} {o : Operator} {f : Builtin} {args : List Expr}

theorem raises_lit_iff {l : Literal} : (lit l).Raises env fault ↔ False := by
  refine iff_false_intro ?_
  rintro ⟨part, hreach, hstuck⟩
  cases hreach
  cases hstuck

theorem raises_var_iff {v : Variable} : (var v).Raises env fault ↔ False := by
  refine iff_false_intro ?_
  rintro ⟨part, hreach, hstuck⟩
  cases hreach
  cases hstuck

theorem raises_not_iff : (not a).Raises env fault ↔ a.Raises env fault := by
  constructor
  · rintro ⟨part, hreach, hstuck⟩
    cases hreach with
    | here => cases hstuck
    | negated h => exact ⟨part, h, hstuck⟩
  · rintro ⟨part, hreach, hstuck⟩
    exact ⟨part, .negated hreach, hstuck⟩

theorem raises_call_iff : (call f args).Raises env fault ↔
    (call f args).Stuck env fault ∨ ∃ before a after vs, args = before ++ a :: after ∧
      evalAll env before = .ok vs ∧ a.Raises env fault := by
  constructor
  · rintro ⟨part, hreach, hstuck⟩
    cases hreach with
    | here => exact .inl hstuck
    | argument hbefore h => exact .inr ⟨_, _, _, _, rfl, hbefore, part, h, hstuck⟩
  · rintro (h | ⟨before, a, after, vs, rfl, hbefore, part, hreach, hstuck⟩)
    · exact ⟨_, .here _, h⟩
    · exact ⟨part, .argument hbefore hreach, hstuck⟩

theorem raises_binary_iff : (binary o a b).Raises env fault ↔ (binary o a b).Stuck env fault ∨
    a.Raises env fault ∨ ∃ x, a.eval env = .ok x ∧ o.decides x = false ∧ b.Raises env fault := by
  constructor
  · rintro ⟨part, hreach, hstuck⟩
    cases hreach with
    | here => exact .inl hstuck
    | left h => exact .inr (.inl ⟨part, h, hstuck⟩)
    | right ha hv h => exact .inr (.inr ⟨_, ha, hv, part, h, hstuck⟩)
  · rintro (h | ⟨part, hreach, hstuck⟩ | ⟨x, ha, hx, part, hreach, hstuck⟩)
    · exact ⟨_, .here _, h⟩
    · exact ⟨part, .left hreach, hstuck⟩
    · exact ⟨part, .right ha hx hreach, hstuck⟩

theorem evalAll_eq_error_iff {es : List Expr} : evalAll env es = .error fault ↔
    ∃ before a after vs, es = before ++ a :: after ∧ evalAll env before = .ok vs ∧
      a.eval env = .error fault := by
  induction es with
  | nil =>
    refine iff_of_false (fun h => nomatch h) ?_
    rintro ⟨before, a, after, vs, h, -⟩
    cases before <;> cases h
  | cons e es ih =>
    rw [evalAll, bind_eq_error_iff]
    constructor
    · rintro (h | ⟨v, hv, h⟩)
      · exact ⟨[], e, es, [], rfl, rfl, h⟩
      · rcases bind_eq_error h with h | ⟨ws, -, h⟩
        · obtain ⟨before, a, after, vs, rfl, hbefore, ha⟩ := ih.1 h
          refine ⟨e :: before, a, after, v :: vs, rfl, ?_, ha⟩
          rw [evalAll, hv, hbefore]
          rfl
        · cases h
    · rintro ⟨before, a, after, vs, hes, hbefore, ha⟩
      cases before with
      | nil =>
        obtain ⟨rfl, rfl⟩ := List.cons.inj hes
        exact .inl ha
      | cons b before =>
        obtain ⟨rfl, rfl⟩ := List.cons.inj hes
        rw [evalAll] at hbefore
        obtain ⟨v, hv, hbefore⟩ := bind_eq_ok.1 hbefore
        obtain ⟨ws, hws, -⟩ := bind_eq_ok.1 hbefore
        have hfront := ih.2 ⟨before, a, after, ws, rfl, hws, ha⟩
        exact .inr ⟨v, hv, bind_eq_error_iff.2 (.inl hfront)⟩

theorem length_of_evalAll {es : List Expr} {vs : List Value} (h : evalAll env es = .ok vs) :
    vs.length = es.length := by
  induction es generalizing vs with
  | nil =>
    cases h
    rfl
  | cons e es ih =>
    rw [evalAll] at h
    obtain ⟨v, -, h⟩ := bind_eq_ok.1 h
    obtain ⟨ws, hws, h⟩ := bind_eq_ok.1 h
    cases h
    rw [List.length_cons, List.length_cons, ih hws]

/-- A tree whose evaluation fails exactly if it comes to a stuck part. -/
def Accounted (env : Variable → Value) (e : Expr) : Prop :=
  ∀ fault, e.eval env = .error fault ↔ e.Raises env fault

theorem Accounted.call (harity : args.length = f.arity) (h : ∀ a ∈ args, Accounted env a) :
    Accounted env (.call f args) := by
  intro fault
  rw [eval, bind_eq_error_iff, evalAll_eq_error_iff, raises_call_iff, or_comm]
  have hlength : ∀ {vs}, evalAll env args = .ok vs → vs.length = f.arity := fun hvs =>
    (length_of_evalAll hvs).trans harity
  refine or_congr ?_ ?_
  · constructor
    · rintro ⟨vs, hvs, happly⟩
      exact .call hvs ((Builtin.apply_eq_error_iff (hlength hvs)).1 happly)
    · rintro ⟨hvs, hstuck⟩
      exact ⟨_, hvs, (Builtin.apply_eq_error_iff (hlength hvs)).2 hstuck⟩
  · constructor
    · rintro ⟨before, a, after, vs, rfl, hbefore, ha⟩
      exact ⟨before, a, after, vs, rfl, hbefore, (h a List.mem_append_cons_self fault).1 ha⟩
    · rintro ⟨before, a, after, vs, rfl, hbefore, ha⟩
      exact ⟨before, a, after, vs, rfl, hbefore, (h a List.mem_append_cons_self fault).2 ha⟩

theorem Accounted.not (h : Accounted env a) : Accounted env (.not a) := by
  intro fault
  rw [eval, bind_eq_error_iff, raises_not_iff, ← h fault, or_iff_left]
  rintro ⟨v, -, hv⟩
  cases hv

/-- The evaluation of two operands: the right one is left out if the left one decides. -/
theorem eval_binary_eq_error_iff : (binary o a b).eval env = .error fault ↔
    (binary o a b).Stuck env fault ∨ a.eval env = .error fault ∨
      ∃ x, a.eval env = .ok x ∧ o.decides x = false ∧ b.eval env = .error fault := by
  have hnot : o ≠ .plus → ¬(binary o a b).Stuck env fault := by
    intro ho hstuck
    cases hstuck
    exact ho rfl
  cases o with
  | and =>
    rw [eval, bind_eq_error_iff, or_iff_right (hnot nofun)]
    refine or_congr_right (exists_congr fun x => and_congr_right fun _ => ?_)
    cases hx : x.isTrue with
    | true => simp only [Operator.decides, hx, if_true, bind_pure_eq_error_iff, Bool.not_true, true_and]
    | false => exact iff_of_false (fun h => nomatch h) fun h => by simp [Operator.decides, hx] at h
  | or =>
    rw [eval, bind_eq_error_iff, or_iff_right (hnot nofun)]
    refine or_congr_right (exists_congr fun x => and_congr_right fun _ => ?_)
    cases hx : x.isTrue with
    | true => exact iff_of_false (fun h => nomatch h) fun h => by simp [Operator.decides, hx] at h
    | false => simp only [Operator.decides, hx, Bool.false_eq_true, if_false, bind_pure_eq_error_iff, true_and]
  | eq | ne =>
    rw [eval, bind_eq_error_iff, or_iff_right (hnot nofun)]
    simp only [bind_pure_eq_error_iff, Operator.decides, true_and]
  | plus =>
    simp only [eval, bind_eq_error_iff, addValues_eq_error_iff, Operator.decides, true_and]
    constructor
    · rintro (h | ⟨x, hx, h | ⟨y, hy, h⟩⟩)
      · exact .inr (.inl h)
      · exact .inr (.inr ⟨x, hx, h⟩)
      · exact .inl (.sum hx hy h)
    · rintro (hstuck | h | ⟨x, hx, h⟩)
      · cases hstuck with
        | sum hx hy h => exact .inr ⟨_, hx, .inr ⟨_, hy, h⟩⟩
      · exact .inl h
      · exact .inr ⟨x, hx, .inl h⟩

theorem Accounted.binary (o : Operator) (ha : Accounted env a) (hb : Accounted env b) :
    Accounted env (.binary o a b) := by
  intro fault
  rw [eval_binary_eq_error_iff, raises_binary_iff, ha fault]
  simp only [hb fault]

end Expr

/-- **An expression that can be written has a value unless its evaluation comes to a stuck part.** -/
theorem Derives.accounted {level : Level} {e : Expr} {ls : List Lexeme} (h : Derives level e ls) :
    e.Accounted env := by
  induction h with
  | lit l => exact fun fault => iff_of_false (fun h => nomatch h) Expr.raises_lit_iff.1
  | var v => exact fun fault => iff_of_false (fun h => nomatch h) Expr.raises_var_iff.1
  | call f args harity _ ih =>
    refine Expr.Accounted.call ((List.length_map _).trans harity) fun a ha => ?_
    obtain ⟨arg, harg, rfl⟩ := List.mem_map.1 ha
    exact ih arg harg
  | group _ ih => exact ih
  | not _ ih => exact ih.not
  | comparison _ _ _ iha ihb => exact iha.binary _ ihb
  | chain _ _ _ iha ihb => exact iha.binary _ ihb
  | tighter _ _ ih => exact ih

theorem derives_of_compile {source : String} {x : Expression}
    (h : Expression.compile source = .ok x) : ∃ ls, Derives .or x.tree ls := by
  obtain ⟨e, hread, h⟩ := bind_eq_ok.1 h
  cases h
  unfold Expression.read at hread
  split at hread
  · cases hread
  · unfold readTokens at hread
    split at hread
    · cases hread
    · obtain ⟨⟨e', rest⟩, hlevel, hread⟩ := bind_eq_ok.1 hread
      obtain ⟨body, -, hderives⟩ := derives_of_readLevel hlevel
      dsimp only at hread
      split at hread <;> cases hread
      exact ⟨_, hderives⟩

end Outline

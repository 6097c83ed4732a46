import Mathlib.Data.List.Forall2

/-!
# Results and failures in a row

* `bind_eq_ok`: computations in a row succeed if each does;
* `bind_eq_error_iff`: they fail if the first one does, or it succeeds and the rest fails;
* `mapM_eq_ok_iff`, `exists_mapM_eq_error_iff`: those on the members of a list succeed if all of
  them do, and fail if one of them does;
* `failure?`: the failure of a result, which can be decided where results cannot;
* `FailsFor`: a result that fails for certain causes only;
* `Gives`: a result that is good, in a certain sense, unless it is a failure.
-/

namespace Outline

variable {ε α β : Type} {x : Except ε α} {f : α → Except ε β} {err : ε}

theorem bind_eq_ok {b : β} : (x >>= f) = .ok b ↔ ∃ a, x = .ok a ∧ f a = .ok b := by
  cases x with
  | error err =>
    constructor
    · intro h
      cases h
    · rintro ⟨a, ha, -⟩
      cases ha
  | ok a =>
    constructor
    · intro h
      exact ⟨a, rfl, h⟩
    · rintro ⟨a', ha, h⟩
      exact Except.ok.inj ha ▸ h

theorem bind_eq_error (h : (x >>= f) = .error err) :
    x = .error err ∨ ∃ a, x = .ok a ∧ f a = .error err := by
  cases x with
  | error err' => exact .inl (Except.error.inj h ▸ rfl)
  | ok a => exact .inr ⟨a, rfl, h⟩

theorem bind_eq_error_iff :
    (x >>= f) = .error err ↔ x = .error err ∨ ∃ a, x = .ok a ∧ f a = .error err := by
  refine ⟨bind_eq_error, ?_⟩
  rintro (h | ⟨a, h, hf⟩)
  · rw [h]
    rfl
  · rw [h]
    exact hf

theorem bind_pure_eq_error_iff {g : α → β} :
    (x >>= fun a => pure (g a)) = .error err ↔ x = .error err := by
  rw [bind_eq_error_iff, or_iff_left]
  rintro ⟨a, -, h⟩
  cases h

theorem map_eq_error_iff {g : α → β} : x.map g = .error err ↔ x = .error err := by
  cases x <;> simp [Except.map]

/-- Computations on the members of a list fail exactly if one of them does. -/
theorem exists_mapM_eq_error_iff {l : List α} :
    (∃ err, l.mapM f = .error err) ↔ ∃ a ∈ l, ∃ err, f a = .error err := by
  induction l with
  | nil => simp [pure, Except.pure]
  | cons a l ih =>
    rw [List.mapM_cons]
    simp only [bind_eq_error_iff, List.mem_cons, exists_eq_or_imp, ← ih]
    cases f a with
    | error err => simp
    | ok b => cases l.mapM f <;> simp [pure, Except.pure]

/-- What comes out of the members of a list, one by one. -/
theorem mapM_eq_ok_iff {l : List α} : ∀ {bs : List β},
    l.mapM f = .ok bs ↔ List.Forall₂ (fun a b => f a = .ok b) l bs := by
  induction l with
  | nil =>
    intro bs
    rw [List.forall₂_nil_left_iff]
    exact ⟨fun h => (Except.ok.inj h).symm, fun h => congrArg Except.ok h.symm⟩
  | cons a l ih =>
    intro bs
    rw [List.mapM_cons, bind_eq_ok, List.forall₂_cons_left_iff]
    constructor
    · rintro ⟨b, hb, h⟩
      obtain ⟨bs', hbs, h⟩ := bind_eq_ok.1 h
      exact ⟨b, bs', hb, ih.1 hbs, (Except.ok.inj h).symm⟩
    · rintro ⟨b, bs', hb, hbs, rfl⟩
      exact ⟨b, hb, bind_eq_ok.2 ⟨bs', ih.2 hbs, rfl⟩⟩

/-- Computations on the members of a list succeed exactly if all of them do. -/
theorem exists_mapM_eq_ok_iff {l : List α} :
    (∃ bs, l.mapM f = .ok bs) ↔ ∀ a ∈ l, ∃ b, f a = .ok b := by
  induction l with
  | nil => exact iff_of_true ⟨[], rfl⟩ (List.forall_mem_nil _)
  | cons a l ih =>
    rw [List.mapM_cons, List.forall_mem_cons, ← ih]
    constructor
    · rintro ⟨bs, h⟩
      obtain ⟨b, hb, h⟩ := bind_eq_ok.1 h
      obtain ⟨bs', hbs, -⟩ := bind_eq_ok.1 h
      exact ⟨⟨b, hb⟩, bs', hbs⟩
    · rintro ⟨⟨b, hb⟩, bs, hbs⟩
      exact ⟨b :: bs, bind_eq_ok.2 ⟨b, hb, bind_eq_ok.2 ⟨bs, hbs, rfl⟩⟩⟩

/-- The failure of a result, if it is one. -/
def failure? : Except ε α → Option ε
  | .ok _ => none
  | .error err => some err

theorem failure?_eq_some_iff : failure? x = some err ↔ x = .error err := by
  cases x <;> simp [failure?]

/-! ## Causes of failures -/

/-- **A result that fails for certain causes only.** -/
def FailsFor (P : ε → Prop) (x : Except ε α) : Prop := ∀ err, x = .error err → P err

namespace FailsFor

variable {P Q : ε → Prop}

theorem ok (a : α) : FailsFor P (.ok a) := fun _ h => nomatch h

theorem mono (h : FailsFor P x) (hPQ : ∀ err, P err → Q err) : FailsFor Q x :=
  fun err herr => hPQ err (h err herr)

theorem bind_of_ok (hx : FailsFor P x) (hf : ∀ a, x = .ok a → FailsFor P (f a)) :
    FailsFor P (x >>= f) := by
  intro err h
  rcases bind_eq_error h with h | ⟨a, ha, h⟩
  · exact hx err h
  · exact hf a ha err h

theorem bind (hx : FailsFor P x) (hf : ∀ a, FailsFor P (f a)) : FailsFor P (x >>= f) :=
  hx.bind_of_ok fun a _ => hf a

theorem map {g : α → β} (hx : FailsFor P x) : FailsFor P (x.map g) :=
  fun err h => hx err (map_eq_error_iff.1 h)

theorem mapM {l : List α} (h : ∀ a ∈ l, FailsFor P (f a)) : FailsFor P (l.mapM f) := by
  induction l with
  | nil => exact .ok []
  | cons a l ih =>
    obtain ⟨ha, hl⟩ := List.forall_mem_cons.1 h
    rw [List.mapM_cons]
    exact ha.bind fun _ => (ih hl).bind fun _ => .ok _

end FailsFor

/-! ## Good results -/

/-- **A result that has a property unless it is a failure.** -/
def Gives (Q : α → Prop) (x : Except ε α) : Prop := ∀ a, x = .ok a → Q a

namespace Gives

variable {Q : α → Prop} {R : β → Prop}

theorem ok {a : α} (h : Q a) : Gives Q (.ok a : Except ε α) := fun _ ha => Except.ok.inj ha ▸ h

theorem bind (hx : Gives Q x) (hf : ∀ a, Q a → Gives R (f a)) : Gives R (x >>= f) := by
  intro b h
  obtain ⟨a, ha, hb⟩ := bind_eq_ok.1 h
  exact hf a (hx a ha) b hb

/-- Nothing needs to be known of a result that does not matter. -/
theorem andThen (hf : ∀ a, Gives R (f a)) : Gives R (x >>= f) :=
  bind (fun _ _ => trivial) fun a (_ : True) => hf a

theorem mapM {l : List α} (h : ∀ a ∈ l, Gives R (f a)) :
    Gives (fun bs => ∀ b ∈ bs, R b) (l.mapM f) := by
  induction l with
  | nil => exact ok (List.forall_mem_nil _)
  | cons a l ih =>
    obtain ⟨ha, hl⟩ := List.forall_mem_cons.1 h
    rw [List.mapM_cons]
    exact ha.bind fun b hb => (ih hl).bind fun bs hbs => ok (List.forall_mem_cons.2 ⟨hb, hbs⟩)

end Gives

end Outline

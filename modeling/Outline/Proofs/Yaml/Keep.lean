import Mathlib.Data.List.Infix
import Outline.Fault

/-!
# Steps that keep an invariant

A step with a state that can fail leads from states of one kind to states of another, or fails in one
of some ways (`Leads`); a step that `Keeps` an invariant leads from its states back to them. Both go
through sequences of steps, which `grind` takes apart.
-/

namespace Outline

variable {σ α β : Type} {P Q I : σ → Prop} {E : Fault → Prop}

/-- **Steps that lead from states to states** or fail in one of some ways. -/
def Leads (P Q : σ → Prop) (E : Fault → Prop) (x : StateT σ (Except Fault) α) : Prop :=
  ∀ s, P s → match x.run s with
    | .ok (_, s') => Q s'
    | .error f => E f

/-- **Steps that keep an invariant** or fail in one of some ways. -/
def Keeps (I : σ → Prop) (E : Fault → Prop) (x : StateT σ (Except Fault) α) : Prop := Leads I I E x

namespace Leads

variable {x : StateT σ (Except Fault) α} {f : α → StateT σ (Except Fault) β}

theorem bind (hx : Leads P Q E x) (hf : ∀ a, Leads Q I E (f a)) : Leads P I E (x >>= f) := by
  intro s hs
  have h := hx s hs
  rw [StateT.run_bind]
  cases hrun : x.run s with
  | error e =>
    rw [hrun] at h
    exact h
  | ok p =>
    rw [hrun] at h
    exact hf p.1 p.2 h

/-- What is done after the state has been looked at may depend on it. -/
theorem get_bind {f : σ → StateT σ (Except Fault) β} (hf : ∀ s, P s → Leads (· = s) Q E (f s)) :
    Leads P Q E (get >>= f) := fun s hs => hf s hs s rfl

theorem error_of_run {s : σ} {fault : Fault} (h : Leads P Q E x) (hs : P s)
    (hrun : x.run s = .error fault) : E fault := by
  have := h s hs
  rwa [hrun] at this

end Leads

namespace Keeps

variable {x : StateT σ (Except Fault) α} {f : α → StateT σ (Except Fault) β}

theorem leads {s : σ} (h : Keeps I E x) (hs : I s) : Leads (· = s) I E x :=
  fun _ heq => h _ (heq ▸ hs)

@[grind ←] theorem bind (hx : Keeps I E x) (hf : ∀ a, Keeps I E (f a)) : Keeps I E (x >>= f) :=
  Leads.bind hx hf

@[grind ←] theorem get_bind {f : σ → StateT σ (Except Fault) β}
    (hf : ∀ s, I s → Keeps I E (f s)) : Keeps I E (get >>= f) :=
  Leads.get_bind fun s hs => (hf s hs).leads hs

theorem ite {c : Prop} [Decidable c] {y : StateT σ (Except Fault) α} (hx : Keeps I E x)
    (hy : Keeps I E y) : Keeps I E (if c then x else y) := by
  split
  · exact hx
  · exact hy

@[grind ←] theorem pure (a : α) : Keeps I E (Pure.pure a) := fun _ hs => hs

@[grind ←] theorem throw {fault : Fault} (h : E fault) :
    Keeps I E (MonadExcept.throw fault : StateT σ (Except Fault) α) := fun _ _ => h

/-- Nothing is done behind a failure. -/
@[grind ←] theorem throw_bind {fault : Fault} (h : E fault) :
    Keeps I E ((MonadExcept.throw fault : StateT σ (Except Fault) α) >>= f) := fun _ _ => h

@[grind ←] theorem set {s : σ} (h : I s) : Keeps I E (MonadStateOf.set s) := fun _ _ => h

@[grind ←] theorem modify {f : σ → σ} (h : ∀ s, I s → I (f s)) :
    Keeps I E (modify f : StateT σ (Except Fault) PUnit) := fun s hs => h s hs

end Keeps

end Outline

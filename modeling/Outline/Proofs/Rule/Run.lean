import Outline.Proofs.Except
import Outline.Proofs.Heading.Matcher
import Outline.Rule.Basic

/-!
# Results of computations that note things

What comes out of computations in a row, up to the first fault, and of those that all rules share:
questions, the binding of a schema, and the rule on the structure of documents.

* `Run.bind_eq_ok`: a computation that ends well went well in each step;
* `Run.Gives`: a computation with a good result, in a certain sense, if it ends well;
* `openContext_eq_ok`, `structureRule_eq_ok`: what a computation that ends well gives;
* `openContext_run`, `structureRule_run`: it ends well where all questions are answered with yes.
-/

namespace Outline

namespace Run

variable {α β : Type}

/-- The result of a computation and the journal behind it. -/
def result (r : Run α) (j : Journal) : Except Fault α × Journal := (ExceptT.run r).run j

theorem result_bind (r : Run α) (f : α → Run β) (j : Journal) :
    (r >>= f).result j = match r.result j with
      | (.ok a, j') => (f a).result j'
      | (.error e, j') => (.error e, j') := by
  unfold result
  rw [ExceptT.run_bind, StateT.run_bind]
  generalize StateT.run (ExceptT.run r) j = first
  rcases first with ⟨_ | a, j'⟩ <;> rfl

theorem result_lift (r : Except Fault α) (j : Journal) :
    (Run.lift r).result j = (r, j) := by
  cases r <;> rfl

/-- A computation that ends well went well in its first step and in the others. -/
theorem bind_eq_ok {r : Run α} {f : α → Run β} {j j' : Journal} {b : β}
    (h : (r >>= f).result j = (.ok b, j')) :
    ∃ a j₁, r.result j = (.ok a, j₁) ∧ (f a).result j₁ = (.ok b, j') := by
  rw [result_bind] at h
  split at h
  · rename_i a j₁ ha
    exact ⟨a, j₁, ha, h⟩
  · cases (Prod.mk.inj h).1

theorem result_bind_of_ok {r : Run α} {j j₁ : Journal} {a : α} (h : r.result j = (.ok a, j₁))
    (f : α → Run β) : (r >>= f).result j = (f a).result j₁ := by
  rw [result_bind, h]

theorem result_forM_warn (part : String) (texts : List String) :
    ∀ j, ∃ j', (texts.forM (Run.warn part) : Run Unit).result j = (.ok (), j') := by
  induction texts with
  | nil => intro j; exact ⟨j, rfl⟩
  | cons text texts ih =>
    intro j
    rw [List.forM_eq_forM, List.forM_cons, result_bind]
    exact ih _

/-! ### Good results -/

/-- **A computation whose result has a property unless it is a fault**, whatever the journal holds. -/
def Gives (Q : α → Prop) (r : Run α) : Prop := ∀ j, Outline.Gives Q (r.result j).1

namespace Gives

variable {Q : α → Prop} {R : β → Prop}

theorem pure {a : α} (h : Q a) : Run.Gives Q (Pure.pure a) := fun _ => Outline.Gives.ok h

theorem lift {x : Except Fault α} (h : Outline.Gives Q x) : Run.Gives Q (Run.lift x) := by
  intro j
  rw [result_lift]
  exact h

theorem bind {r : Run α} {f : α → Run β} (hr : Run.Gives Q r) (hf : ∀ a, Q a → Run.Gives R (f a)) :
    Run.Gives R (r >>= f) := by
  intro j b h
  obtain ⟨a, j₁, ha, hb⟩ := bind_eq_ok (Prod.ext h rfl)
  refine hf a (hr j a ?_) j₁ b ?_
  · rw [ha]
  · rw [hb]

/-- Nothing needs to be known of a result that does not matter. -/
theorem andThen {r : Run α} {f : α → Run β} (hf : ∀ a, Run.Gives R (f a)) :
    Run.Gives R (r >>= f) :=
  bind (fun _ _ _ => trivial) fun a (_ : True) => hf a

theorem mapM {f : α → Run β} {l : List α} (h : ∀ a ∈ l, Run.Gives R (f a)) :
    Run.Gives (fun bs => ∀ b ∈ bs, R b) (l.mapM f) := by
  induction l with
  | nil => exact pure (List.forall_mem_nil _)
  | cons a l ih =>
    obtain ⟨ha, hl⟩ := List.forall_mem_cons.1 h
    rw [List.mapM_cons]
    exact ha.bind fun b hb => (ih hl).bind fun bs hbs => pure (List.forall_mem_cons.2 ⟨hb, hbs⟩)

end Gives

end Run

/-- What comes out of the members of a list is as many results as members. -/
theorem length_of_mapM_eq_ok {α β : Type} {f : α → Except Fault β} {l : List α} :
    ∀ {l' : List β}, l.mapM f = .ok l' → l'.length = l.length := by
  induction l with
  | nil => intro l' h; rw [← Except.ok.inj h]; rfl
  | cons a l ih =>
    intro l' h
    rw [List.mapM_cons] at h
    cases ha : f a with
    | error e => rw [ha] at h; cases h
    | ok b =>
      rw [ha] at h
      cases hl : l.mapM f with
      | error e => rw [hl] at h; cases h
      | ok bs =>
        rw [hl] at h
        rw [← Except.ok.inj h]
        exact congrArg (· + 1) (ih hl)

theorem mapM_eq_ok_nil {α β : Type} {f : α → Except Fault β} {l : List α}
    (h : l.mapM f = .ok []) : l = [] :=
  List.length_eq_zero_iff.1 (length_of_mapM_eq_ok h).symm

/-- Questions end in the first fault, or else in the matcher behind them. -/
theorem result_askAll (path : String) (m : Matcher) (questions : List Question) (j : Journal) :
    ∃ j', (askAll path m questions).result j =
      (match (m.askAll path questions).1 with
        | some f => .error f
        | none => .ok (m.askAll path questions).2.1, j') := by
  obtain ⟨j', hj'⟩ :=
    Run.result_forM_warn "mdschema.pattern_matcher" (m.askAll path questions).2.2 j
  refine ⟨j', ?_⟩
  unfold askAll
  rw [Run.result_bind_of_ok hj']
  cases (m.askAll path questions).1 <;> rfl

theorem result_askAll_of_accepts {path : String} {m : Matcher} (hm : m.Faithful)
    {questions : List Question} (h : ∀ q ∈ questions, q.spec.accepts path q.heading = true)
    (j : Journal) :
    ∃ m' j', (askAll path m questions).result j = (.ok m', j') ∧ m'.Faithful := by
  obtain ⟨hnone, hfaithful⟩ := Matcher.Faithful.askAll_of_accepts questions hm h
  obtain ⟨j', hj'⟩ := result_askAll path m questions j
  rw [hnone] at hj'
  exact ⟨_, j', hj', hfaithful⟩

/-! ## Contexts -/

section

variable {d : Document} {schema : Schema} {root : String}

/-- A context holds the document, the schema and the binding of one to the other. -/
theorem openContext_eq_ok {c : Context} {j j' : Journal}
    (h : (openContext d schema root).result j = (.ok c, j')) :
    c.document = d ∧ c.schema = schema ∧
      c.binding = bindDocument (HeadingSpec.accepts d.path) d schema.elements := by
  obtain ⟨m, j₁, -, h⟩ := Run.bind_eq_ok h
  obtain ⟨-, j₂, -, h⟩ := Run.bind_eq_ok h
  obtain rfl := Except.ok.inj (Prod.mk.inj h).1
  exact ⟨rfl, rfl, rfl⟩

theorem openContext_run (root : String)
    (h : ∀ q ∈ (bindDocument (HeadingSpec.accepts d.path) d schema.elements).asked,
      q.spec.accepts d.path q.heading = true) (j : Journal) :
    ∃ c j', (openContext d schema root).result j = (.ok c, j') ∧ c.matcher.Faithful := by
  obtain ⟨m, j', hask, hfaithful⟩ := result_askAll_of_accepts Matcher.faithful_empty h j
  refine ⟨_, _, (Run.result_bind_of_ok hask _).trans (Run.result_bind_of_ok rfl _), hfaithful⟩

/-! ## The rule on structure -/

variable {c : Context}

theorem structureRule_eq_ok {vs : List Violation} {j j' : Journal}
    (h : (structureRule c).result j = (.ok vs, j')) :
    (structureFindings c.accepts c.binding c.document c.schema.elements).mapM Finding.violation =
      .ok vs := by
  obtain ⟨m, j₁, -, h⟩ := Run.bind_eq_ok h
  rw [Run.result_lift] at h
  exact (Prod.mk.inj h).1

theorem structureRule_run (hm : c.matcher.Faithful)
    (h : ∀ q ∈ structureQuestions c.accepts c.binding c.document c.schema.elements,
      q.spec.accepts c.document.path q.heading = true) (j : Journal) :
    ∃ j', (structureRule c).result j =
      ((structureFindings c.accepts c.binding c.document c.schema.elements).mapM
        Finding.violation, j') := by
  obtain ⟨m, j', hask, -⟩ := result_askAll_of_accepts hm h j
  refine ⟨j', (Run.result_bind_of_ok hask _).trans ?_⟩
  exact Run.result_lift _ _

end

end Outline

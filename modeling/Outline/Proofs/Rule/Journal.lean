import Outline.Evaluation
import Outline.Proofs.Rule.Run

/-!
# Results and the journal

No computation looks at what has been noted before: **its result does not depend on the journal**
that it starts with (`Run.Steady`). Hence the result of computations in a row is that of their
results in a row (`Run.journal_bind`, `Run.journal_mapM`, `Run.journal_filterM`).

* `Rule.steady_check`: the result of a rule does not depend on the journal.
-/

namespace Outline

namespace Run

variable {α β : Type}

/-- The result is the same whatever the journal holds. -/
def Steady (r : Run α) : Prop := ∀ j, (r.result j).1 = r.journal.1

theorem steady_pure (a : α) : Steady (pure a) := fun _ => rfl

theorem steady_throw (f : Fault) : Steady (throw f : Run α) := fun _ => rfl

theorem steady_lift (r : Except Fault α) : (Run.lift r).Steady := by
  intro j
  change (Run.result _ j).1 = (Run.result _ {}).1
  rw [result_lift, result_lift]

theorem steady_note (urgent : Bool) (part text : String) : (Run.note urgent part text).Steady :=
  fun _ => rfl

theorem steady_request (r : HeadRequest) : (Run.request r).Steady := fun _ => rfl

@[simp] theorem journal_pure (a : α) : (pure a : Run α).journal.1 = .ok a := rfl

@[simp] theorem journal_lift (r : Except Fault α) : (Run.lift r).journal.1 = r :=
  congrArg Prod.fst (result_lift r {})

section

variable {r : Run α} {f : α → Run β}

theorem result_bind_fst (hf : ∀ a, (f a).Steady) (j : Journal) :
    ((r >>= f).result j).1 = (r.result j).1 >>= fun a => (f a).journal.1 := by
  rw [result_bind]
  rcases r.result j with ⟨_ | a, j'⟩
  · rfl
  · exact hf a j'

/-- **The result of a computation and of one that goes on from it.** -/
theorem journal_bind (hf : ∀ a, (f a).Steady) :
    (r >>= f).journal.1 = r.journal.1 >>= fun a => (f a).journal.1 :=
  result_bind_fst hf {}

theorem Steady.bind (hr : r.Steady) (hf : ∀ a, (f a).Steady) : (r >>= f).Steady := by
  intro j
  rw [result_bind_fst hf, journal_bind hf, hr j]

end

section

variable {f : α → Run β} (hf : ∀ a, (f a).Steady)

include hf

theorem steady_mapM (l : List α) : (l.mapM f).Steady := by
  induction l with
  | nil => exact steady_pure []
  | cons a l ih =>
    rw [List.mapM_cons]
    exact (hf a).bind fun b => ih.bind fun bs => steady_pure (b :: bs)

/-- **The results of computations on the members of a list.** -/
theorem journal_mapM (l : List α) : (l.mapM f).journal.1 = l.mapM fun a => (f a).journal.1 := by
  induction l with
  | nil => rfl
  | cons a l ih =>
    rw [List.mapM_cons, List.mapM_cons,
      journal_bind fun b => (steady_mapM hf l).bind fun bs => steady_pure (b :: bs),
      funext fun b => journal_bind fun bs => steady_pure (b :: bs), ih]
    rfl

end

theorem steady_forM {f : α → Run Unit} (hf : ∀ a, (f a).Steady) (l : List α) :
    (l.forM f).Steady := by
  induction l with
  | nil => exact steady_pure ()
  | cons a l ih =>
    rw [List.forM_eq_forM, List.forM_cons]
    exact (hf a).bind fun _ => ih

section

variable {p : α → Run Bool} (hp : ∀ a, (p a).Steady)

include hp

theorem steady_filterAuxM (l : List α) : ∀ kept, (l.filterAuxM p kept).Steady := by
  induction l with
  | nil => intro kept; exact steady_pure kept
  | cons a l ih => intro kept; exact (hp a).bind fun _ => ih _

theorem journal_filterAuxM (l : List α) : ∀ kept,
    (l.filterAuxM p kept).journal.1 = l.filterAuxM (fun a => (p a).journal.1) kept := by
  induction l with
  | nil => intro kept; rfl
  | cons a l ih =>
    intro kept
    refine (journal_bind fun _ => steady_filterAuxM hp l _).trans ?_
    exact congrArg _ (funext fun _ => ih _)

theorem steady_filterM (l : List α) : (l.filterM p).Steady :=
  (steady_filterAuxM hp l []).bind fun kept => steady_pure kept.reverse

/-- **The results of a test of the members of a list.** -/
theorem journal_filterM (l : List α) :
    (l.filterM p).journal.1 = l.filterM fun a => (p a).journal.1 := by
  refine (journal_bind fun kept : List α => steady_pure kept.reverse).trans ?_
  rw [journal_filterAuxM hp]
  rfl

end

end Run

/-! ## Rules -/

theorem steady_askAll (path : String) (m : Matcher) (questions : List Question) :
    (askAll path m questions).Steady := by
  refine (Run.steady_forM (fun _ => Run.steady_note _ _ _) _).bind fun _ => ?_
  cases (m.askAll path questions).1 with
  | some f => exact Run.steady_throw f
  | none => exact Run.steady_pure _

theorem steady_contentContains (content : String) (p : TextPattern) :
    (contentContains content p).Steady := by
  refine (Run.steady_lift _).bind fun ⟨found, malformed⟩ => ?_
  cases malformed with
  | true => exact (Run.steady_note _ _ _).bind fun _ => Run.steady_pure found
  | false => exact Run.steady_pure found

section

variable {c : Context}

theorem steady_onBoundNodes {check : Placed → Run (List Violation)} (h : ∀ p, (check p).Steady) :
    (onBoundNodes c check).Steady :=
  (Run.steady_mapM h _).bind fun _ => Run.steady_pure _

theorem steady_onRequirements {α : Type} (requirements : SectionRules → List α)
    (check : Placed → α → Except Fault (List Violation)) :
    (onRequirements c requirements check).Steady :=
  steady_onBoundNodes fun _ => (Run.steady_lift _).bind fun _ => Run.steady_pure _

theorem steady_requestPage (web : Web) (r : LinkRules) (url : String) :
    (requestPage web r url).Steady := by
  refine (Run.steady_note _ _ _).bind fun _ => ?_
  refine (Run.steady_forM (fun _ => Run.steady_request _) _).bind fun _ => ?_
  split
  · exact Run.steady_throw _
  · exact Run.steady_pure _
  · split <;> exact Run.steady_pure _

theorem steady_checkPage (network : Option Web) (r : LinkRules) (url : String) :
    (checkPage network r url).Steady := by
  unfold checkPage
  split
  · exact Run.steady_pure _
  · split
    · exact steady_requestPage _ r url
    · exact Run.steady_pure _

theorem steady_linkMessage (network : Option Web) (around : Surroundings) (r : LinkRules)
    (url : String) : (linkMessage network around r c url).Steady := by
  unfold linkMessage
  split
  · exact Run.steady_pure _
  · exact steady_checkPage network r url
  · exact Run.steady_pure _
  · split <;> exact Run.steady_pure _

theorem steady_structureRule : (structureRule c).Steady :=
  (steady_askAll _ _ _).bind fun _ => Run.steady_lift _

/-- **The result of a rule does not depend on the journal.** -/
theorem Rule.steady_check (around : Surroundings) (r : Rule) : (r.check around c).Steady := by
  cases r with
  | sections => exact steady_structureRule
  | requiredText =>
    exact steady_onBoundNodes fun _ => (Run.steady_filterM (fun _ =>
      (steady_contentContains _ _).bind fun _ => Run.steady_pure _) _).bind fun _ =>
        Run.steady_pure _
  | forbiddenText =>
    exact steady_onBoundNodes fun _ => (Run.steady_filterM (fun _ =>
      steady_contentContains _ _) _).bind fun _ => Run.steady_pure _
  | codeBlock | image | table | list | wordCount => exact steady_onRequirements _ _
  | heading =>
    simp only [Rule.check, headingRule]
    split
    · exact Run.steady_lift _
    · exact Run.steady_pure _
  | link =>
    simp only [Rule.check, linkRule]
    split
    · exact (Run.steady_mapM (fun _ => (steady_linkMessage _ around _ _).bind fun _ =>
        Run.steady_pure _) _).bind fun _ => Run.steady_pure _
    · exact Run.steady_pure _
  | frontMatter =>
    simp only [Rule.check, frontMatterRule]
    split
    · exact (Run.steady_lift _).bind fun _ => Run.steady_pure _
    · exact Run.steady_pure _

theorem steady_checkRule (around : Surroundings) (r : Rule) : (checkRule around c r).Steady := by
  refine (r.steady_check around).bind fun found => ?_
  cases found with
  | nil => exact Run.steady_pure _
  | cons v vs => exact (Run.steady_note _ _ _).bind fun _ => Run.steady_pure _

theorem journal_checkRule (around : Surroundings) (r : Rule) :
    (checkRule around c r).journal.1 = (r.check around c).journal.1 := by
  refine (Run.journal_bind fun found => ?_).trans ?_
  · cases found with
    | nil => exact Run.steady_pure _
    | cons v vs => exact (Run.steady_note _ _ _).bind fun _ => Run.steady_pure _
  · rcases (r.check around c).journal.1 with _ | _ | _ <;> rfl

end

end Outline

import Outline.Proofs.Binding.Scope

/-!
# What holds of each element

What holds of each element of a schema, at any depth, holds of the element of every node
(`EachElement.of_mem_allNodes`), and of the elements whose headings are asked for
(`EachElement.asked_bindSiblings`).

* `EachElement`: what holds of each of some elements and of those below them.
-/

namespace Outline

/-- **The property holds of each of the elements**, and of each element below them. -/
inductive EachElement (P : Element → Prop) : List Element → Prop
  | nil : EachElement P []
  | cons {e : Element} {es : List Element} (here : P e) (below : EachElement P e.children)
      (rest : EachElement P es) : EachElement P (e :: es)

/-- The question is about the heading of an element with the property. -/
def AsksFor (P : Element → Prop) (q : Question) : Prop := ∃ e, P e ∧ q.spec = e.heading

namespace EachElement

variable {P : Element → Prop} {accepts : Accepts} {elements : List Element}

theorem imp {P' : Element → Prop} (h : EachElement P elements) (hP : ∀ e, P e → P' e) :
    EachElement P' elements := by
  induction h with
  | nil => exact .nil
  | cons here _ _ ihbelow ihrest => exact .cons (hP _ here) ihbelow ihrest

/-- The property holds of the element of every node, and of each element below it. -/
theorem of_mem_allNodes (h : EachElement P elements) {order : Nat} {sections : List Section}
    {after : Nat} : ∀ n ∈ allNodes (matchSiblings accepts elements order sections after),
      P n.element ∧ EachElement P n.element.children := by
  refine forall_mem_allNodes (Q := fun elements _ => EachElement P elements) ?_ ?_ ?_ ?_ elements h
  · rintro _ _ _ (_ | ⟨_, _, rest⟩)
    exact rest
  · rintro _ _ _ (_ | ⟨_, below, _⟩)
    exact ⟨below, fun _ _ => below⟩
  · rintro e _ _ _ (_ | ⟨here, below, _⟩) _
    rw [e.unbound_eq]
    exact ⟨here, below⟩
  · rintro _ _ _ _ _ (_ | ⟨here, below, _⟩) _ _ _
    exact ⟨here, below⟩

/-! ## Questions -/

theorem asked_note {st : Progress} (h : ∀ q ∈ st.asked, AsksFor P q) {e : Element} (he : P e)
    (sections : List Section) : ∀ q ∈ (st.note e.heading sections).asked, AsksFor P q := by
  intro q hq
  rcases List.mem_append.1 hq with hq | hq
  · obtain ⟨s, -, rfl⟩ := List.mem_map.1 (List.mem_reverse.1 hq)
    exact ⟨e, he, rfl⟩
  · exact h q hq

theorem asked_occurrences {bindBelow : List Section → Progress → List Node × Progress}
    (hbelow : ∀ sections st, (∀ q ∈ st.asked, AsksFor P q) →
      ∀ q ∈ (bindBelow sections st).2.asked, AsksFor P q)
    {e : Element} {order count : Nat} (taken : List Section) :
    ∀ {index : Nat} {st : Progress}, (∀ q ∈ st.asked, AsksFor P q) →
      ∀ q ∈ (occurrences bindBelow e order count index taken st).2.asked, AsksFor P q := by
  induction taken with
  | nil => intro index st h; exact h
  | cons s taken ih =>
    intro index st h
    exact ih (hbelow s.children (st.bind s) h)

/-- **The binding asks for the headings of the elements only.** -/
theorem asked_bindSiblings (h : EachElement P elements) :
    ∀ {order : Nat} {sections : List Section} {after : Nat} {st : Progress},
      (∀ q ∈ st.asked, AsksFor P q) →
        ∀ q ∈ (bindSiblings accepts elements order sections after st).2.asked, AsksFor P q := by
  induction h with
  | nil => intro order sections after st hst; exact hst
  | @cons e es here below rest ihbelow ihrest =>
    intro order sections after st hst
    simp only [bindSiblings]
    refine ihrest ?_
    rw [bindElement_eq]
    split
    · exact asked_note hst here _
    · exact asked_occurrences (fun _ _ hst => ihbelow hst) _ (asked_note hst here _)

theorem asked_bindDocument (h : EachElement P elements) (d : Document) :
    ∀ q ∈ (bindDocument accepts d elements).asked, AsksFor P q := fun q hq =>
  h.asked_bindSiblings (fun _ hq => absurd hq List.not_mem_nil) q (List.mem_reverse.1 hq)

end EachElement

end Outline

import Mathlib.Algebra.Order.BigOperators.Group.List
import Outline.Proofs.Binding.Scope

/-!
# Binding relaxed elements

Elements that ask for less, because some are optional, allow additional sections or have to occur
less often, take the same sections: **the record of the binding and its questions are the same**
(`bindSiblings_relaxed`), and **so are the nodes with a section, up to their elements**
(`agrees_boundNodes`). In each scope there are no more nodes without a section
(`countP_unbound_relaxed`).

* `Element.Relaxes`, `Looser`: elements that ask for less, alone and with those below them;
* `Node.Agrees`, `Placed.Agrees`: nodes that differ by such elements only.
-/

namespace Outline

/-- **An element that asks for no more than another one**: it is the same, but it may be optional,
allow additional sections, or have to occur less often. -/
structure Element.Relaxes (e e' : Element) : Prop where
  heading : e'.heading = e.heading
  severity : e'.severity = e.severity
  rules : e'.rules = e.rules
  description : e'.description = e.description
  optional : e.optional = true → e'.optional = true
  additional : e.allowAdditional = true → e'.allowAdditional = true
  count : Option.Rel (fun b b' => b'.max = b.max ∧ b'.min.value ≤ b.min.value) e.count e'.count

/-- **Elements of which each asks for no more than the one in its place**, as those below it. -/
inductive Looser : List Element → List Element → Prop
  | nil : Looser [] []
  | cons {e e' : Element} {es es' : List Element} (here : e.Relaxes e')
      (below : Looser e.children e'.children) (rest : Looser es es') : Looser (e :: es) (e' :: es')

/-! ## Elements -/

namespace Element.Relaxes

variable {e e' : Element} (h : e.Relaxes e')

include h

theorem isRequired (hrequired : e'.isRequired = true) : e.isRequired = true := by
  have hcount := h.count
  unfold Element.isRequired Element.least at hrequired ⊢
  rcases hc : e.count with _ | b <;> rcases hc' : e'.count with _ | b' <;> rw [hc, hc'] at hcount
  · rw [hc'] at hrequired
    have hoptional : e.optional = false := by
      by_contra hopt
      rw [if_pos (h.optional (by simpa using hopt))] at hrequired
      cases hrequired
    simp only [hoptional]
    decide
  · cases hcount
  · cases hcount
  · cases hcount with
    | some hb =>
      rw [hc', decide_eq_true_iff] at hrequired
      exact decide_eq_true (Nat.lt_of_lt_of_le hrequired hb.2)

theorem isRepeatable : e'.isRepeatable = e.isRepeatable := by
  have hcount := h.count
  unfold Element.isRepeatable
  generalize e.count = c at hcount ⊢
  generalize e'.count = c' at hcount ⊢
  cases hcount with
  | none => rfl
  | some hb => simp only [hb.1]

theorem most : e'.most = e.most := by
  have hcount := h.count
  unfold Element.most
  generalize e.count = c at hcount ⊢
  generalize e'.count = c' at hcount ⊢
  cases hcount with
  | none => rfl
  | some hb => simp only [hb.1]

theorem least_le (hrepeatable : e.isRepeatable = true) : e'.least.value ≤ e.least.value := by
  have hcount := h.count
  unfold Element.isRepeatable at hrepeatable
  unfold Element.least
  generalize e.count = c at hcount hrepeatable ⊢
  generalize e'.count = c' at hcount ⊢
  cases hcount with
  | none => cases hrepeatable
  | some hb => exact hb.2

theorem take (accepts : Accepts) (free : List Section) :
    e'.take accepts free = e.take accepts free := by
  unfold Element.take
  rw [h.heading, h.most]

theorem look (accepts : Accepts) (free : List Section) :
    e'.look accepts free = e.look accepts free := by
  unfold Element.look
  rw [h.heading, h.most]

end Element.Relaxes

/-! ## The record and the questions -/

/-- What occurrences leave depends on what the binding below them leaves. -/
theorem occurrences_snd {bindBelow bindBelow' : List Section → Progress → List Node × Progress}
    (h : ∀ sections st, (bindBelow' sections st).2 = (bindBelow sections st).2) {e e' : Element}
    {order count : Nat} (taken : List Section) : ∀ {index : Nat} {st : Progress},
      (occurrences bindBelow' e' order count index taken st).2 =
        (occurrences bindBelow e order count index taken st).2 := by
  induction taken with
  | nil => intro index st; rfl
  | cons s taken ih =>
    intro index st
    simp only [occurrences]
    rw [ih, h]

section

variable (accepts : Accepts) {elements elements' : List Element}

/-- **Relaxed elements leave the same record and ask the same questions.** -/
theorem bindSiblings_relaxed (h : Looser elements elements') :
    ∀ {order : Nat} {sections : List Section} {after : Nat} {st : Progress},
      (bindSiblings accepts elements' order sections after st).2 =
        (bindSiblings accepts elements order sections after st).2 := by
  induction h with
  | nil => intro order sections after st; rfl
  | @cons e e' es es' here below rest ihbelow ihrest =>
    intro order sections after st
    have hhere : ∀ {taken : List Section} {st : Progress},
        (bindElement accepts e' order taken st).2 = (bindElement accepts e order taken st).2 := by
      intro taken st
      rw [bindElement_eq, bindElement_eq]
      cases taken.isEmpty with
      | true => rfl
      | false => exact occurrences_snd (fun sections st => ihbelow) taken
    simp only [bindSiblings]
    rw [here.take, here.look, here.heading, ihrest, hhere]

theorem bindDocument_bound_relaxed (d : Document) (h : Looser elements elements') :
    (bindDocument accepts d elements').bound = (bindDocument accepts d elements).bound :=
  congrArg Progress.bound (bindSiblings_relaxed accepts h)

theorem bindDocument_asked_relaxed (d : Document) (h : Looser elements elements') :
    (bindDocument accepts d elements').asked = (bindDocument accepts d elements).asked :=
  congrArg (fun st => st.asked.reverse) (bindSiblings_relaxed accepts h)

end

/-! ## Nodes with a section -/

/-- **Nodes for the same section in the same place**, the second of an element that asks for no more
than that of the first. -/
structure Node.Agrees (n n' : Node) : Prop where
  boundTo : n'.boundTo? = n.boundTo?
  order : n'.order = n.order
  matchCount : n'.matchCount = n.matchCount
  matchIndex : n'.matchIndex = n.matchIndex
  element : n.element.Relaxes n'.element
  below : Looser n.element.children n'.element.children

/-- Nodes that agree, as their ancestors do. -/
def Placed.Agrees (p p' : Placed) : Prop :=
  List.Forall₂ Node.Agrees (p.node :: p.ancestors) (p'.node :: p'.ancestors)

theorem Placed.Agrees.node {p p' : Placed} (h : p.Agrees p') : p.node.Agrees p'.node :=
  (List.forall₂_cons.1 h).1

/-- The nodes of a walk that have a section. -/
def walkBound (ancestors nodes : List Node) : List Placed :=
  (walkNodes ancestors nodes).filter (·.node.isBound)

theorem Binding.boundNodes_eq (b : Binding) : b.boundNodes = walkBound [] b.roots := rfl

@[simp] theorem walkBound_nil (ancestors : List Node) : walkBound ancestors [] = [] := rfl

theorem walkBound_append (ancestors ns ns' : List Node) :
    walkBound ancestors (ns ++ ns') = walkBound ancestors ns ++ walkBound ancestors ns' := by
  unfold walkBound
  rw [walkNodes_append, List.filter_append]

theorem walkBound_cons_bound {ancestors : List Node} {n : Node} (h : n.isBound = true)
    (ns : List Node) : walkBound ancestors (n :: ns) =
      ⟨n, ancestors⟩ :: (walkBound (n :: ancestors) n.children ++ walkBound ancestors ns) := by
  unfold walkBound
  rw [walkNodes_cons, List.filter_cons, if_pos h, List.filter_append]

/-- Nodes without a section in them have none with a section among them. -/
theorem walkBound_eq_nil {ancestors nodes : List Node} (h : boundSections nodes = []) :
    walkBound ancestors nodes = [] := by
  refine List.filter_eq_nil_iff.2 fun p hp hbound => ?_
  obtain ⟨s, hs⟩ := Option.isSome_iff_exists.1 hbound
  have hmem : s ∈ boundSections nodes := mem_boundSections.2 ⟨p.node, node_mem_allNodes hp, hs⟩
  rw [h] at hmem
  exact absurd hmem List.not_mem_nil

section

variable {accepts : Accepts}

/-- The nodes of an element without sections hold no section. -/
theorem walkBound_nodes_nil (e : Element) (below : Section → List Node) (order : Nat)
    (ancestors : List Node) : walkBound ancestors (e.nodes below order []) = [] :=
  walkBound_eq_nil (boundSections_nodes e below order [])

/-- The nodes of elements agree, if those below each of the sections do. -/
theorem agrees_map_node {e e' : Element} {below below' : Section → List Node} {order count : Nat}
    (here : e.Relaxes e') (hlooser : Looser e.children e'.children) (taken : List Section)
    (hbelow : ∀ s ∈ taken, ∀ {ancestors ancestors'},
      List.Forall₂ Node.Agrees ancestors ancestors' →
        List.Forall₂ Placed.Agrees (walkBound ancestors (below s))
          (walkBound ancestors' (below' s))) :
    ∀ {index : Nat} {ancestors ancestors'}, List.Forall₂ Node.Agrees ancestors ancestors' →
      List.Forall₂ Placed.Agrees
        (walkBound ancestors ((taken.zipIdx index).map (e.node below order count)))
        (walkBound ancestors' ((taken.zipIdx index).map (e'.node below' order count))) := by
  induction taken with
  | nil => intro index ancestors ancestors' _; exact .nil
  | cons s taken ih =>
    intro index ancestors ancestors' hancestors
    obtain ⟨hs, hbelow⟩ := List.forall_mem_cons.1 hbelow
    have hnode : (e.node below order count (s, index)).Agrees
        (e'.node below' order count (s, index)) := ⟨rfl, rfl, rfl, rfl, here, hlooser⟩
    rw [List.zipIdx_cons, List.map_cons, List.map_cons, walkBound_cons_bound rfl,
      walkBound_cons_bound rfl]
    exact .cons (.cons hnode hancestors)
      (List.rel_append (hs (.cons hnode hancestors)) (ih hbelow hancestors))

/-- **Relaxed elements have the same nodes with a section, in the same order.** -/
theorem agrees_matchSiblings {elements elements' : List Element} (h : Looser elements elements') :
    ∀ {order : Nat} {sections : List Section} {after : Nat} {ancestors ancestors' : List Node},
      List.Forall₂ Node.Agrees ancestors ancestors' →
        List.Forall₂ Placed.Agrees
          (walkBound ancestors (matchSiblings accepts elements order sections after))
          (walkBound ancestors' (matchSiblings accepts elements' order sections after)) := by
  induction h with
  | nil => intro order sections after ancestors ancestors' _; exact .nil
  | @cons e e' es es' here below rest ihbelow ihrest =>
    intro order sections after ancestors ancestors' hancestors
    rw [matchSiblings_cons, matchSiblings_cons, here.take, walkBound_append, walkBound_append]
    refine List.rel_append ?_ (ihrest hancestors)
    -- Without a section, one of the elements may have nodes and the other none; neither is bound.
    by_cases htaken : e.take accepts (sectionsAfter after sections) = []
    · rw [htaken, walkBound_nodes_nil, walkBound_nodes_nil]
      exact .nil
    · rw [e.nodes_of_taken _ _ htaken, e'.nodes_of_taken _ _ htaken]
      exact agrees_map_node here below _ (fun s _ => ihbelow) hancestors

/-- Relaxed elements have no more nodes without a section in a scope. -/
theorem countP_unbound_relaxed {elements elements' : List Element} (h : Looser elements elements') :
    ∀ {order : Nat} {sections : List Section} {after : Nat},
      (matchSiblings accepts elements' order sections after).countP (!·.isBound) ≤
        (matchSiblings accepts elements order sections after).countP (!·.isBound) := by
  induction h with
  | nil => intro order sections after; exact Nat.le_refl _
  | @cons e e' es es' here below rest _ ihrest =>
    intro order sections after
    rw [matchSiblings_cons, matchSiblings_cons, here.take, List.countP_append, List.countP_append]
    refine Nat.add_le_add ?_ ihrest
    by_cases htaken : e.take accepts (sectionsAfter after sections) = []
    · rw [htaken, e.nodes_of_nil, e'.nodes_of_nil]
      by_cases hrequired : e'.isRequired = true
      · rw [if_pos hrequired, if_pos (here.isRequired hrequired), e.unbound_eq, e'.unbound_eq]
        exact Nat.le_refl _
      · rw [if_neg hrequired]
        exact Nat.zero_le _
    · rw [e.nodes_of_taken _ _ htaken, e'.nodes_of_taken _ _ htaken, List.countP_map,
        List.countP_map]
      exact Nat.le_refl _

/-! ## Documents -/

variable {d : Document} {elements elements' : List Element}

/-- **The nodes with a section agree.** -/
theorem agrees_boundNodes (hreg : Regular d.sections) (h : Looser elements elements') :
    List.Forall₂ Placed.Agrees (bindDocument accepts d elements).boundNodes
      (bindDocument accepts d elements').boundNodes := by
  rw [Binding.boundNodes_eq, Binding.boundNodes_eq, bindDocument_roots accepts elements hreg,
    bindDocument_roots accepts elements' hreg]
  exact agrees_matchSiblings h .nil

end

/-! ## Traces -/

/-- Which section a node is bound to: the place of its element in the schema, the section, and which
of the sections of the element it is. -/
def Placed.trace (p : Placed) : List Nat × Option Section × Nat :=
  (((p.node :: p.ancestors).map Node.order).reverse, p.node.boundTo?, p.node.matchIndex)

/-- The traces of the nodes with a section, each before those below it. -/
def Binding.trace (b : Binding) : List (List Nat × Option Section × Nat) :=
  b.boundNodes.map Placed.trace

theorem map_eq_of_forall₂ {α β : Type} {R : α → α → Prop} {f : α → β}
    (hf : ∀ a a', R a a' → f a' = f a) {l l' : List α} (h : List.Forall₂ R l l') :
    l'.map f = l.map f := by
  induction h with
  | nil => rfl
  | cons hhead _ ih => rw [List.map_cons, List.map_cons, hf _ _ hhead, ih]

theorem Placed.Agrees.trace_eq {p p' : Placed} (h : p.Agrees p') : p'.trace = p.trace := by
  unfold Placed.trace
  rw [map_eq_of_forall₂ (fun _ _ hn => Node.Agrees.order hn) h, h.node.boundTo, h.node.matchIndex]

/-- **Relaxed elements leave the same traces.** -/
theorem trace_relaxed {accepts : Accepts} {d : Document} {elements elements' : List Element}
    (hreg : Regular d.sections) (h : Looser elements elements') :
    (bindDocument accepts d elements').trace = (bindDocument accepts d elements).trace :=
  map_eq_of_forall₂ (fun _ _ hp => Placed.Agrees.trace_eq hp) (agrees_boundNodes hreg h)

/-- **Relaxed elements leave the same sections without a node.** -/
theorem unmatched_relaxed (accepts : Accepts) (d : Document) {elements elements' : List Element}
    (h : Looser elements elements') :
    (bindDocument accepts d elements').unmatched d =
      (bindDocument accepts d elements).unmatched d := by
  unfold Binding.unmatched Binding.isBound
  rw [bindDocument_bound_relaxed accepts d h]

end Outline

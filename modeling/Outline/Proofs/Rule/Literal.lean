import Outline.Proofs.Binding.Each
import Outline.Proofs.Rule.Accept
import Outline.Proofs.Structure.Conforming

/-!
# Schemas of literal headings

Where every heading of a schema is a text, no question is a fault (`EachElement.answerable`). If no
element is repeatable, no finding is one either, and **the evaluation of a document ends with the
violations of its structure**, as long as the sections meet their requirements
(`evaluate_eq_ok`).

* `Element.IsLiteral`: an element whose heading is a text;
* `EachElement.asked_structureQuestions`: what the rule on structure asks for.
-/

namespace Outline

/-! ## Questions -/

section

variable {P : Element → Prop} {accepts : Accepts}

/-- A search asks for the headings of the nodes that it meets. -/
theorem asked_foldl_step_each {b : Binding} {scope : Scope} (nodes : List Node) :
    ∀ {st : Search}, (∀ n ∈ nodes, P n.element) → (∀ q ∈ st.asked, AsksFor P q) →
      ∀ q ∈ (nodes.foldl (Search.step accepts b scope) st).asked, AsksFor P q := by
  induction nodes with
  | nil => intro st _ h; exact h
  | cons n ns ih =>
    intro st hnodes h
    obtain ⟨hn, hnodes⟩ := List.forall_mem_cons.1 hnodes
    rw [List.foldl_cons]
    refine ih hnodes ?_
    unfold Search.step
    split
    · split <;> exact h
    · intro q hq
      rcases List.mem_append.1 hq with hq | hq
      · obtain ⟨s, -, rfl⟩ := List.mem_map.1 (List.mem_reverse.1 hq)
        exact ⟨n.element, hn, rfl⟩
      · exact h q hq

theorem asked_foldl_inScope_each {b : Binding} (scopes : List Scope) : ∀ {st : Search},
    (∀ scope ∈ scopes, ∀ n ∈ scope.siblings, P n.element) → (∀ q ∈ st.asked, AsksFor P q) →
      ∀ q ∈ (scopes.foldl (Search.inScope accepts b) st).asked, AsksFor P q := by
  induction scopes with
  | nil => intro st _ h; exact h
  | cons scope scopes ih =>
    intro st hscopes h
    obtain ⟨hscope, hscopes⟩ := List.forall_mem_cons.1 hscopes
    exact ih hscopes (asked_foldl_step_each scope.siblings hscope h)

variable {d : Document} {elements : List Element}

theorem firstPair?_each (h : EachElement P elements) {parent : String} {sections : List Section}
    {pair : FirstPair} (hpair : firstPair? parent elements sections = some pair) :
    P pair.expected := by
  cases h with
  | nil => cases hpair
  | cons here =>
    cases sections with
    | nil => cases hpair
    | cons s ss =>
      simp only [firstPair?] at hpair
      split_ifs at hpair
      obtain rfl := Option.some.inj hpair
      exact here

/-- **The rule on structure asks for the headings of the elements only.** -/
theorem EachElement.asked_structureQuestions (hreg : Regular d.sections)
    (h : EachElement P elements) :
    ∀ q ∈ structureQuestions accepts (bindDocument accepts d elements) d elements,
      AsksFor P q := by
  have hnodes : ∀ n ∈ allNodes (bindDocument accepts d elements).roots,
      P n.element ∧ EachElement P n.element.children := by
    rw [bindDocument_roots accepts elements hreg]
    exact h.of_mem_allNodes
  intro q hq
  rcases List.mem_append.1 hq with hq | hq
  · refine asked_foldl_inScope_each _ (fun scope hscope n hn => ?_)
      (fun _ hq => absurd hq List.not_mem_nil) q (List.mem_reverse.1 hq)
    rcases (mem_scopes _).1 hscope with rfl | ⟨p, hp, s, -, rfl⟩
    · exact (hnodes n (mem_allNodes.2 ⟨n, hn, Or.inl rfl⟩)).1
    · exact (hnodes n (node_mem_allNodes (mem_walkNodes_children hp hn))).1
  · obtain ⟨pair, hpair, rfl⟩ := List.mem_map.1 hq
    refine ⟨pair.expected, ?_, rfl⟩
    rcases List.mem_append.1 hpair with hpair | hpair
    · exact firstPair?_each h (Option.mem_toList.1 hpair)
    · obtain ⟨p, hp, hpair⟩ := List.mem_filterMap.1 hpair
      obtain ⟨s, -, hpair⟩ := Option.bind_eq_some_iff.1 hpair
      exact firstPair?_each (hnodes p.node (node_mem_allNodes hp)).2 hpair

end

/-! ## Literal headings -/

/-- The heading of the element is a text. -/
def Element.IsLiteral (e : Element) : Prop := ∃ text, e.heading = .literal text

section

variable {d : Document} {elements : List Element}

theorem answerable_of_asksFor {path : String} {questions : List Question}
    (h : ∀ q ∈ questions, AsksFor Element.IsLiteral q) : Answerable path questions :=
  answerable_of_literal fun q hq => by
    obtain ⟨e, ⟨text, htext⟩, hspec⟩ := h q hq
    exact ⟨text, hspec.trans htext⟩

/-- **Where headings are texts, all questions can be answered.** -/
theorem EachElement.answerable (hreg : Regular d.sections)
    (h : EachElement Element.IsLiteral elements) (accepts : Accepts) :
    Answerable d.path (bindDocument accepts d elements).asked ∧
      Answerable d.path
        (structureQuestions accepts (bindDocument accepts d elements) d elements) :=
  ⟨answerable_of_asksFor (h.asked_bindDocument d),
    answerable_of_asksFor (h.asked_structureQuestions hreg)⟩

/-- Where headings are texts, the structure of a document is accepted if it has no findings. -/
theorem EachElement.accepted {schema : Schema} (h : EachElement Element.IsLiteral schema.elements)
    (hreg : Regular d.sections) (root : String)
    (hnone : structureFindings (HeadingSpec.accepts d.path) (bindingOf d schema) d
      schema.elements = []) :
    (Run.journal do structureRule (← openContext d schema root)).1 = .ok [] := by
  obtain ⟨hasked, hquestions⟩ := h.answerable hreg (HeadingSpec.accepts d.path)
  exact structureRun_ok_iff.2 ⟨hasked, hquestions, hnone ▸ rfl⟩

end

/-! ## Evaluation -/

theorem Finding.violation_of_pass {f : Finding} (h : f.pass ≠ .tooFew) :
    ∃ v, f.violation = .ok v := by
  cases f with
  | tooFew => exact absurd rfl h
  | _ => exact ⟨_, rfl⟩

/-- Where no element is repeatable, all findings can be reported. -/
theorem violations_of_single (accepts : Accepts) {d : Document} {elements : List Element}
    (hreg : Regular d.sections) (h : EachElement (·.isRepeatable = false) elements) :
    ∃ vs, (structureFindings accepts (bindDocument accepts d elements) d elements).mapM
      Finding.violation = .ok vs := by
  refine exists_mapM_eq_ok_iff.2 fun f hf => Finding.violation_of_pass fun hpass => ?_
  have hmem : f ∈ tooFewSections (bindDocument accepts d elements) := by
    rw [← ofPass_tooFew accepts _ d elements]
    exact List.mem_filter.2 ⟨hf, by rw [hpass]; rfl⟩
  obtain ⟨p, hp, -⟩ := List.mem_map.1 hmem
  obtain ⟨hp, hfew⟩ := List.mem_filter.1 hp
  have hnode := node_mem_allNodes (List.mem_filter.1 hp).1
  rw [bindDocument_roots accepts elements hreg] at hnode
  rw [(h.of_mem_allNodes p.node hnode).1] at hfew
  cases hfew

theorem mapM_rules {f : Rule → Except Fault (List Violation)} {vs : List Violation}
    (hsections : f .sections = .ok vs) (hothers : ∀ r, r ≠ Rule.sections → f r = .ok []) :
    Rule.all.mapM f = .ok [vs, [], [], [], [], [], [], [], [], [], []] := by
  simp [Rule.all, hsections, hothers, bind, Except.bind, pure, Except.pure]

/-- **The evaluation of a document ends with the violations of its structure**, if the headings of
the schema are texts and the sections meet their requirements. -/
theorem evaluate_eq_ok {d : Document} {schema : Schema} (hreg : Regular d.sections)
    (hlocal : schema.Local) (hliteral : EachElement Element.IsLiteral schema.elements)
    (hmeets : ∀ p ∈ (bindingOf d schema).boundNodes, p.Meets) (around : Surroundings)
    (root : String) {vs : List Violation}
    (hvs : (structureFindings (HeadingSpec.accepts d.path) (bindingOf d schema) d
      schema.elements).mapM Finding.violation = .ok vs) :
    (evaluate around schema root d).journal.1 = .ok (vs.map (·.withPath d.path)) := by
  obtain ⟨hasked, hquestions⟩ := hliteral.answerable hreg (HeadingSpec.accepts d.path)
  have hsteady : ∀ c, (Rule.all.mapM (checkRule around c) >>= fun found =>
      pure (found.flatten.map (·.withPath d.path)) : Run (List Violation)).Steady := fun c =>
    (Run.steady_mapM (steady_checkRule around) _).bind fun _ => Run.steady_pure _
  refine (openContext_bind_ok_iff hsteady).2 ⟨hasked, ?_⟩
  have hsections : (Rule.sections.check around
      (contextOf d schema root (matcherOf d schema))).journal.1 = .ok vs :=
    (structureRule_ok_iff (faithful_matcherOf hasked)).2 ⟨hquestions, hvs⟩
  have hothers : ∀ r, r ≠ Rule.sections → (r.check around
      (contextOf d schema root (matcherOf d schema))).journal.1 = .ok [] :=
    (hlocal.check_iff around).2 hmeets
  rw [Run.journal_bind fun _ => Run.steady_pure _, Run.journal_mapM (steady_checkRule around),
    funext (journal_checkRule around), mapM_rules hsections hothers]
  simp [bind, Except.bind]

end Outline

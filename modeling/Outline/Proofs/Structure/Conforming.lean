import Outline.Proofs.Rule.Run
import Outline.Proofs.Structure.Shape

/-!
# Conforming documents

The rule on the structure of documents, with the binding before it, against the shape of the schema,
where each element has to occur exactly once and none has additional sections. In a document of the
shape of the schema every question that is asked is answered with yes (`accepts_of_mem_asked`,
`accepts_of_mem_structureQuestions`), so that nothing stops the rule, and **the rule ends without a
violation exactly in such documents**.
-/

namespace Outline

section

variable {accepts : Accepts}

/-! ## Questions of the binding -/

/-- An element that may not occur more than once looks at the first section only, if its heading
accepts it. -/
theorem Element.look_first {e : Element} (hsingle : e.isRepeatable = false) {s : Section}
    {ss : List Section} (haccepts : accepts e.heading s.heading = true) :
    e.look accepts (s :: ss) = [s] := by
  unfold look
  rw [e.most_of_not_isRepeatable hsingle, askedAmong, if_pos haccepts]
  · cases ss <;> rfl
  · exact fun h => absurd h (by simp)

/-- What binding siblings leaves, where the first element takes the first section. -/
theorem bindSiblings_first {e : Element} {es : List Element} (hsingle : e.isRepeatable = false)
    {order after : Nat} {sections : List Section} {st : Progress}
    (hst : Untouched st (sectionsAfter after sections)) {s : Section} {ss : List Section}
    (hfree : sectionsAfter after sections = s :: ss)
    (haccepts : accepts e.heading s.heading = true) :
    (bindSiblings accepts (e :: es) order sections after st).2 =
      (bindSiblings accepts es (order + 1) sections s.startLine
        (bindSiblings accepts e.children 0 s.children 0
          ((st.note e.heading [s]).bind s)).2).2 := by
  simp only [bindSiblings, hst.free_eq, hfree, Element.take_first hsingle haccepts,
    Element.look_first hsingle haccepts, bindElement_eq]
  rfl

/-- **The binding asks only questions answered with yes**, where the shape is that of the schema. -/
theorem asked_bindSiblings {elements : List Element} :
    ∀ (order : Nat) {sections : List Section} (after : Nat) {st : Progress}, Plain elements →
      Regular sections → Untouched st (sectionsAfter after sections) →
      SameShape accepts elements (sectionsAfter after sections) →
      ∀ q ∈ (bindSiblings accepts elements order sections after st).2.asked,
        q ∈ st.asked ∨ accepts q.spec q.heading = true := by
  induction elements using elements_induction with
  | nil => intro order sections after st _ _ _ _ q hq; exact Or.inl hq
  | cons e es ihe ih =>
    intro order sections after st hplain hreg hst hshape q hq
    generalize hfree : sectionsAfter after sections = free at hshape
    cases hplain with
    | cons _ hsingle _ hbelow hrest =>
      cases hshape with
      | @cons _ _ s ss haccepts hchildren hlater =>
        have hs : s ∈ sections :=
          (sectionsAfter_sublist after sections).subset (hfree ▸ List.mem_cons_self)
        have hregSection := hreg.children hs
        have hzero := sectionsAfter_zero hregSection
        have hnote : Untouched (st.note e.heading [s]) (sectionsAfter after sections) := hst
        have hinside : Untouched ((st.note e.heading [s]).bind s) (sectionsAfter 0 s.children) := by
          rw [hzero]
          exact hnote.bind (hreg.sublist (sectionsAfter_sublist after sections))
            (hfree ▸ List.mem_cons_self)
        -- the subsections of `s` and it are the only sections on record
        have hrecord := (bindSiblings_eq accepts e.children 0 0 hregSection hinside).2
        have hsub := boundSections_matchSiblings_sublist accepts e.children 0 0 hregSection
        rw [hzero] at hsub
        have hsub : ∀ t ∈ [s], (boundSections (matchBelow accepts e t)).Sublist
            (walkAll t.children) := List.forall_mem_singleton.2 hsub
        have hleft := hst.left hreg (hfree ▸ List.singleton_sublist.2 List.mem_cons_self) hsub
          (hrecord.trans (by simp [Progress.bind, Progress.note]))
        rw [bindSiblings_first hsingle hst hfree haccepts] at hq
        rcases ih (order + 1) s.startLine hrest hreg hleft
          (by rwa [sectionsAfter_first hreg.siblings hfree]) q hq with hq | hq
        · rcases ihe 0 0 hbelow hregSection hinside (by rwa [hzero]) q hq with hq | hq
          · rcases List.mem_cons.1 hq with rfl | hq
            · exact Or.inr haccepts
            · exact Or.inl hq
          · exact Or.inr hq
        · exact Or.inr hq

variable {d : Document} {elements : List Element}

theorem accepts_of_mem_asked (h : Regular d.sections) (hplain : Plain elements)
    (hshape : SameShape accepts elements d.sections) :
    ∀ q ∈ (bindDocument accepts d elements).asked, accepts q.spec q.heading = true := by
  intro q hq
  rw [← sectionsAfter_zero h] at hshape
  have hst : Untouched {} (sectionsAfter 0 d.sections) := fun _ _ => List.not_mem_nil
  exact (asked_bindSiblings 0 0 hplain h hst hshape q (List.mem_reverse.1 hq)).resolve_left
    List.not_mem_nil

/-! ## Questions of the rule -/

theorem asked_foldl_step {b : Binding} {scope : Scope} (nodes : List Node) : ∀ {st : Search},
    (∀ n ∈ nodes, n.isBound = true) →
      (nodes.foldl (Search.step accepts b scope) st).asked = st.asked := by
  induction nodes with
  | nil => intro st _; rfl
  | cons n ns ih =>
    intro st hbound
    obtain ⟨hn, hbound⟩ := List.forall_mem_cons.1 hbound
    obtain ⟨s, hs⟩ := Option.isSome_iff_exists.1 hn
    rw [List.foldl_cons, ih hbound]
    simp only [Search.step, hs]
    split_ifs <;> rfl

theorem asked_foldl_inScope {b : Binding} (scopes : List Scope) : ∀ {st : Search},
    (∀ scope ∈ scopes, ∀ n ∈ scope.siblings, n.isBound = true) →
      (scopes.foldl (Search.inScope accepts b) st).asked = st.asked := by
  induction scopes with
  | nil => intro st _; rfl
  | cons scope scopes ih =>
    intro st hbound
    obtain ⟨hhere, hbound⟩ := List.forall_mem_cons.1 hbound
    rw [List.foldl_cons, ih hbound]
    exact asked_foldl_step scope.siblings hhere

/-- Where every node has a section, the search for misplaced ones asks nothing. -/
theorem asked_searchMisplaced {b : Binding}
    (hbound : ∀ n ∈ allNodes b.roots, n.isBound = true) :
    (searchMisplaced accepts b d).asked = [] := by
  refine asked_foldl_inScope _ fun scope hscope n hn => ?_
  rcases (mem_scopes b).1 hscope with rfl | ⟨q, hq, s, -, rfl⟩
  · exact hbound n (mem_allNodes.2 ⟨n, hn, Or.inl rfl⟩)
  · exact hbound n (node_mem_allNodes (mem_walkNodes_children hq hn))

theorem accepts_of_mem_structureQuestions (h : Regular d.sections) (hplain : Plain elements)
    (hshape : SameShape accepts elements d.sections) :
    ∀ q ∈ structureQuestions accepts (bindDocument accepts d elements) d elements,
      accepts q.spec q.heading = true := by
  have hcomplete : Complete (bindDocument accepts d elements).roots d.sections := by
    rw [← sectionsAfter_zero h, sameShape_iff_complete accepts 0 0 hplain h] at hshape
    rwa [sectionsAfter_zero h, ← bindDocument_roots accepts elements h] at hshape
  intro q hq
  rw [structureQuestions, asked_searchMisplaced hcomplete.bound, List.reverse_nil, List.nil_append,
    List.mem_map] at hq
  obtain ⟨pair, hpair, rfl⟩ := hq
  exact accepts_of_mem_firstPairs h hplain hshape pair hpair

end

/-! ## The rule -/

/-- **The rule on structure ends without a violation exactly in documents of the shape of the
schema**, where each element has to occur exactly once and none has additional sections. -/
theorem structureRule_eq_nil_iff {text path : String} {d : Document}
    (h : parseDocument text path = .ok d) {schema : Schema} (hplain : Plain schema.elements)
    (root : String) :
    (Run.journal do structureRule (← openContext d schema root)).1 = .ok [] ↔
      SameShape (HeadingSpec.accepts d.path) schema.elements d.sections := by
  have hreg := regular_of_parseDocument h
  have hfindings := structureFindings_eq_nil_iff (HeadingSpec.accepts d.path) hreg hplain
  change (Run.result _ {}).1 = _ ↔ _
  constructor
  · intro hok
    obtain ⟨c, j, hopen, hrule⟩ := Run.bind_eq_ok (Prod.ext hok rfl)
    obtain ⟨hdocument, hschema, hbinding⟩ := openContext_eq_ok hopen
    have hnil := mapM_eq_ok_nil (structureRule_eq_ok hrule)
    rw [Context.accepts, hdocument, hschema, hbinding] at hnil
    exact hfindings.1 hnil
  · intro hshape
    obtain ⟨c, j, hopen, hfaithful⟩ :=
      openContext_run root (accepts_of_mem_asked hreg hplain hshape) {}
    obtain ⟨hdocument, hschema, hbinding⟩ := openContext_eq_ok hopen
    have hquestions := accepts_of_mem_structureQuestions hreg hplain hshape
    rw [← hbinding, ← hdocument, ← hschema] at hquestions
    obtain ⟨j', hrule⟩ := structureRule_run hfaithful hquestions j
    rw [Run.result_bind_of_ok hopen, hrule, Context.accepts, hdocument, hschema, hbinding,
      hfindings.2 hshape]
    rfl

/-- The schema of the sample. -/
def sampleSchema : Schema :=
  { elements :=
      [{ heading := .literal "# A"
         children :=
          [{ heading := .literal "## B" }, { heading := .literal "## C" },
            { heading := .literal "## B" }] }] }

theorem plain_sampleSchema : Plain sampleSchema.elements :=
  .cons (by decide) rfl rfl
    (.cons (by decide) rfl rfl .nil
      (.cons (by decide) rfl rfl .nil (.cons (by decide) rfl rfl .nil .nil))) .nil

theorem sameShape_sampleSchema :
    SameShape (HeadingSpec.accepts "") sampleSchema.elements sampleDocument.sections :=
  .cons (by decide)
    (.cons (by decide) .nil (.cons (by decide) .nil (.cons (by decide) .nil .nil))) .nil

theorem structureRule_sample : parseDocument sampleText "" = .ok sampleDocument ∧
    Plain sampleSchema.elements ∧
      (Run.journal do structureRule (← openContext sampleDocument sampleSchema "")).1 = .ok [] :=
  ⟨parseDocument_sample, plain_sampleSchema,
    (structureRule_eq_nil_iff parseDocument_sample plain_sampleSchema "").2 sameShape_sampleSchema⟩

end Outline

import Outline.Proofs.Structure.Missing
import Outline.Proofs.Structure.Unexpected

/-!
# Documents of the shape of a schema

If each element of a schema has to occur exactly once, and none has additional sections, then
**there are no findings in a document exactly if its sections have the shape of the elements**
(`structureFindings_eq_nil_iff`): as many sections as elements, each with a heading that its element
accepts, and so on below them.

* `SameShape`: sections of the shape of elements;
* `Plain`: elements that occur exactly once and have no additional sections;
* `Complete`: nodes that all have a section, where all sections have a node.
-/

namespace Outline

/-- **Sections of the shape of elements**: as many of them, each with a heading that its element
accepts, and with subsections of the shape of the elements below it. -/
inductive SameShape (accepts : Accepts) : List Element → List Section → Prop
  | nil : SameShape accepts [] []
  | cons {e : Element} {es : List Element} {s : Section} {ss : List Section}
      (heading : accepts e.heading s.heading = true)
      (below : SameShape accepts e.children s.children)
      (rest : SameShape accepts es ss) : SameShape accepts (e :: es) (s :: ss)

/-- Elements that have to occur, may not occur more than once, and have no additional sections, as
all elements below them. -/
inductive Plain : List Element → Prop
  | nil : Plain []
  | cons {e : Element} {es : List Element} (required : e.isRequired = true)
      (single : e.isRepeatable = false) (closed : e.allowAdditional = false)
      (below : Plain e.children) (rest : Plain es) : Plain (e :: es)

/-- Every one of the nodes has a section, and every one of the sections has a node. -/
structure Complete (nodes : List Node) (sections : List Section) : Prop where
  bound : ∀ n ∈ allNodes nodes, n.isBound = true
  all : boundSections nodes = walkAll sections

/-! ## One scope -/

theorem sublist_append_inj {α : Type} {l l' r r' : List α} (h : l.Sublist r) (h' : l'.Sublist r')
    (he : l ++ l' = r ++ r') : l = r ∧ l' = r' := by
  have hlength := congrArg List.length he
  rw [List.length_append, List.length_append] at hlength
  have := h.length_le
  have := h'.length_le
  exact List.append_inj he (by omega)

section

variable {accepts : Accepts}

theorem sectionsAfter_first {after : Nat} {sections : List Section}
    (hinc : sections.Pairwise fun s t => s.startLine < t.startLine) {s : Section}
    {ss : List Section} (h : sectionsAfter after sections = s :: ss) :
    sectionsAfter s.startLine sections = ss := by
  have hs : after < s.startLine := (mem_sectionsAfter.1 (h ▸ List.mem_cons_self)).2
  have hlater := hinc.sublist (sectionsAfter_sublist after sections)
  rw [h, List.pairwise_cons] at hlater
  rw [← sectionsAfter_sectionsAfter (Nat.le_of_lt hs), h, sectionsAfter,
    List.filter_cons_of_neg (by simp)]
  exact List.filter_eq_self.2 fun t ht => decide_eq_true (hlater.1 t ht)

/-- An element that may not occur more than once takes the first section, if its heading accepts
it. -/
theorem Element.take_first {e : Element} (hsingle : e.isRepeatable = false) {s : Section}
    {ss : List Section} (haccepts : accepts e.heading s.heading = true) :
    e.take accepts (s :: ss) = [s] := by
  unfold take takeMatching
  rw [e.most_of_not_isRepeatable hsingle, List.filter_cons, if_pos haccepts]
  rfl

/-- The nodes of a scope, where the first element takes the first section. -/
theorem matchSiblings_first {e : Element} {es : List Element} (hsingle : e.isRepeatable = false)
    {order after : Nat} {sections : List Section} {s : Section} {ss : List Section}
    (hfree : sectionsAfter after sections = s :: ss)
    (haccepts : accepts e.heading s.heading = true) :
    matchSiblings accepts (e :: es) order sections after =
      e.node (matchBelow accepts e) order 1 (s, 0) ::
        matchSiblings accepts es (order + 1) sections s.startLine := by
  rw [matchSiblings_cons, hfree, Element.take_first hsingle haccepts]
  rfl

theorem complete_nil_iff {sections : List Section} : Complete [] sections ↔ sections = [] := by
  constructor
  · intro h
    have hall := h.all
    cases sections with
    | nil => rfl
    | cons s ss =>
      rw [boundSections_nil, walkAll_cons] at hall
      exact absurd hall.symm (List.cons_ne_nil _ _)
  · rintro rfl
    exact ⟨fun n hn => absurd hn List.not_mem_nil, rfl⟩

/-- The scope of a section and what is left of the scope that it lies in are complete each for
itself. -/
theorem complete_first_iff {e : Element} {es : List Element} (hsingle : e.isRepeatable = false)
    {order after : Nat} {sections : List Section} (hreg : Regular sections) {s : Section}
    {ss : List Section} (hfree : sectionsAfter after sections = s :: ss)
    (haccepts : accepts e.heading s.heading = true) :
    Complete (matchSiblings accepts (e :: es) order sections after) (s :: ss) ↔
      Complete (matchBelow accepts e s) s.children ∧
        Complete (matchSiblings accepts es (order + 1) sections s.startLine) ss := by
  have hs : s ∈ sections :=
    (sectionsAfter_sublist after sections).subset (hfree ▸ List.mem_cons_self)
  have hbelow := boundSections_matchSiblings_sublist accepts e.children 0 0 (hreg.children hs)
  rw [sectionsAfter_zero (hreg.children hs)] at hbelow
  have hrest := boundSections_matchSiblings_sublist accepts es (order + 1) s.startLine hreg
  rw [sectionsAfter_first hreg.siblings hfree] at hrest
  have hbound : boundSections (matchSiblings accepts (e :: es) order sections after) =
      s :: (boundSections (matchBelow accepts e s) ++
        boundSections (matchSiblings accepts es (order + 1) sections s.startLine)) := by
    rw [matchSiblings_first hsingle hfree haccepts, boundSections_cons]
    rfl
  have hnodes : ∀ n, n ∈ allNodes (matchSiblings accepts (e :: es) order sections after) ↔
      n = e.node (matchBelow accepts e) order 1 (s, 0) ∨ n ∈ allNodes (matchBelow accepts e s) ∨
        n ∈ allNodes (matchSiblings accepts es (order + 1) sections s.startLine) := by
    intro n
    rw [matchSiblings_first hsingle hfree haccepts, allNodes_cons, List.mem_cons, List.mem_append]
    rfl
  constructor
  · intro h
    have hall := h.all
    rw [hbound, walkAll_cons] at hall
    obtain ⟨hallBelow, hallRest⟩ := sublist_append_inj hbelow hrest (List.cons.inj hall).2
    exact ⟨⟨fun n hn => h.bound n ((hnodes n).2 (Or.inr (Or.inl hn))), hallBelow⟩,
      ⟨fun n hn => h.bound n ((hnodes n).2 (Or.inr (Or.inr hn))), hallRest⟩⟩
  · rintro ⟨h, h'⟩
    refine ⟨fun n hn => ?_, by rw [hbound, h.all, h'.all, walkAll_cons]⟩
    rcases (hnodes n).1 hn with rfl | hn | hn
    · rfl
    · exact h.bound n hn
    · exact h'.bound n hn

/-- In a complete scope the first element takes the first section. -/
theorem Complete.first {e : Element} {es : List Element} (hrequired : e.isRequired = true)
    {order after : Nat} {sections : List Section}
    (h : Complete (matchSiblings accepts (e :: es) order sections after)
      (sectionsAfter after sections)) :
    ∃ s ss, sectionsAfter after sections = s :: ss ∧ accepts e.heading s.heading = true := by
  have hall := h.all
  have hbound := h.bound
  rw [matchSiblings_cons] at hall hbound
  cases htaken : e.take accepts (sectionsAfter after sections) with
  | nil =>
    rw [htaken, e.nodes_of_nil, if_pos hrequired] at hbound
    have hnode := hbound (e.unbound order) (by simp)
    rw [e.unbound_eq] at hnode
    cases hnode
  | cons t ts =>
    rw [boundSections_append, boundSections_nodes, htaken, List.flatMap_cons] at hall
    cases hfree : sectionsAfter after sections with
    | nil => rw [hfree] at hall; cases hall
    | cons s ss =>
      rw [hfree, walkAll_cons] at hall
      obtain rfl : t = s := (List.cons.inj hall).1
      exact ⟨t, ss, rfl, e.accepts_of_mem_take (htaken ▸ List.mem_cons_self)⟩

variable (accepts) in
/-- **The sections of a scope have the shape of its elements exactly if the scope is complete.** -/
theorem sameShape_iff_complete {elements : List Element} :
    ∀ (order : Nat) {sections : List Section} (after : Nat), Plain elements → Regular sections →
      (SameShape accepts elements (sectionsAfter after sections) ↔
        Complete (matchSiblings accepts elements order sections after)
          (sectionsAfter after sections)) := by
  induction elements using elements_induction with
  | nil =>
    intro order sections after _ _
    rw [matchSiblings_nil, complete_nil_iff]
    constructor
    · intro h
      generalize sectionsAfter after sections = free at h ⊢
      cases h
      rfl
    · intro h
      rw [h]
      exact .nil
  | cons e es ihe ih =>
    intro order sections after hplain hreg
    cases hplain with
    | cons hrequired hsingle _ hbelow hrest =>
      have hstep : ∀ {s ss}, sectionsAfter after sections = s :: ss →
          accepts e.heading s.heading = true →
          (Complete (matchSiblings accepts (e :: es) order sections after) (s :: ss) ↔
            SameShape accepts e.children s.children ∧ SameShape accepts es ss) := by
        intro s ss hfree haccepts
        have hs : s ∈ sections :=
          (sectionsAfter_sublist after sections).subset (hfree ▸ List.mem_cons_self)
        have hchildren := ihe 0 0 hbelow (hreg.children hs)
        rw [sectionsAfter_zero (hreg.children hs)] at hchildren
        have hlater := ih (order + 1) s.startLine hrest hreg
        rw [sectionsAfter_first hreg.siblings hfree] at hlater
        rw [complete_first_iff hsingle hreg hfree haccepts, hchildren, hlater]
      constructor
      · intro h
        generalize hfree : sectionsAfter after sections = free at h ⊢
        cases h with
        | cons haccepts hchildren hlater =>
          exact (hstep hfree haccepts).2 ⟨hchildren, hlater⟩
      · intro h
        obtain ⟨s, ss, hfree, haccepts⟩ := h.first hrequired
        rw [hfree] at h ⊢
        obtain ⟨hchildren, hlater⟩ := (hstep hfree haccepts).1 h
        exact .cons haccepts hchildren hlater

/-- The sections of every scope have the shape of its elements, if those at the top have. -/
theorem sameShape_below {elements : List Element} :
    ∀ (order : Nat) {sections : List Section} (after : Nat), Plain elements → Regular sections →
      SameShape accepts elements (sectionsAfter after sections) →
      ∀ n ∈ allNodes (matchSiblings accepts elements order sections after),
        SameShape accepts n.element.children n.sections := by
  induction elements using elements_induction with
  | nil => intro order sections after _ _ _ n hn; exact absurd hn List.not_mem_nil
  | cons e es ihe ih =>
    intro order sections after hplain hreg hshape n hn
    generalize hfree : sectionsAfter after sections = free at hshape
    cases hplain with
    | cons _ hsingle _ hbelow hrest =>
      cases hshape with
      | @cons _ _ s ss haccepts hchildren hlater =>
        have hs : s ∈ sections :=
          (sectionsAfter_sublist after sections).subset (hfree ▸ List.mem_cons_self)
        rw [matchSiblings_first hsingle hfree haccepts, allNodes_cons, List.mem_cons,
          List.mem_append] at hn
        rcases hn with rfl | hn | hn
        · exact hchildren
        · refine ihe 0 0 hbelow (hreg.children hs) ?_ n hn
          rwa [sectionsAfter_zero (hreg.children hs)]
        · refine ih (order + 1) s.startLine hrest hreg ?_ n hn
          rwa [sectionsAfter_first hreg.siblings hfree]

/-- The elements of all nodes occur once and have no additional sections. -/
theorem plain_of_mem_allNodes {elements : List Element} {order : Nat} {sections : List Section}
    {after : Nat} (h : Plain elements) :
    ∀ n ∈ allNodes (matchSiblings accepts elements order sections after),
      n.element.isRepeatable = false ∧ n.element.allowAdditional = false := by
  refine forall_mem_allNodes (Q := fun elements _ => Plain elements) ?_ ?_ ?_ ?_ elements h
  · rintro _ _ _ (_ | ⟨_, _, _, _, hrest⟩)
    exact hrest
  · rintro _ _ _ (_ | ⟨_, _, _, hbelow, _⟩)
    exact ⟨hbelow, fun _ _ => hbelow⟩
  · rintro e _ _ _ (_ | ⟨_, hsingle, hclosed, _, _⟩) _
    rw [e.unbound_eq]
    exact ⟨hsingle, hclosed⟩
  · rintro _ _ _ _ _ (_ | ⟨_, hsingle, hclosed, _, _⟩) _ _ _
    exact ⟨hsingle, hclosed⟩

theorem accepts_of_firstPair {parent : String} {elements : List Element} {sections : List Section}
    (h : SameShape accepts elements sections) {pair : FirstPair}
    (hpair : firstPair? parent elements sections = some pair) :
    accepts pair.expected.heading pair.found = true := by
  cases h with
  | nil => cases hpair
  | cons haccepts _ _ =>
    simp only [firstPair?] at hpair
    split_ifs at hpair
    obtain rfl := Option.some.inj hpair
    exact haccepts

/-! ## Documents -/

/-- If each node whose ancestors have a section has one, then all nodes have one. -/
theorem isBound_of_outermost {nodes : List Node} : ∀ {ancestors : List Node},
    (∀ m ∈ ancestors, m.isBound = true) →
      (∀ p ∈ walkNodes ancestors nodes, (∀ m ∈ p.ancestors, m.isBound = true) →
        p.node.isBound = true) →
      ∀ n ∈ allNodes nodes, n.isBound = true := by
  induction nodes using nodes_induction with
  | nil => intro ancestors _ _ n hn; exact absurd hn List.not_mem_nil
  | cons n ns ihn ih =>
    intro ancestors hancestors h
    simp only [walkNodes_cons, List.forall_mem_cons, List.forall_mem_append] at h
    obtain ⟨hhere, hbelow, hrest⟩ := h
    rw [allNodes_cons]
    have hn := hhere hancestors
    exact List.forall_mem_cons.2 ⟨hn, List.forall_mem_append.2
      ⟨ihn (List.forall_mem_cons.2 ⟨hn, hancestors⟩) hbelow, ih hancestors hrest⟩⟩

variable {d : Document} {elements : List Element}

/-- Where the shape is that of the schema, the first section of each scope is the one expected. -/
theorem accepts_of_mem_firstPairs (h : Regular d.sections) (hplain : Plain elements)
    (hshape : SameShape accepts elements d.sections) :
    ∀ pair ∈ firstPairs (bindDocument accepts d elements) d elements,
      accepts pair.expected.heading pair.found = true := by
  intro pair hpair
  rcases List.mem_append.1 hpair with hpair | hpair
  · exact accepts_of_firstPair hshape (Option.mem_toList.1 hpair)
  · obtain ⟨q, hq, hpair⟩ := List.mem_filterMap.1 hpair
    obtain ⟨s, hs, hpair⟩ := Option.bind_eq_some_iff.1 hpair
    have hq := node_mem_allNodes hq
    rw [bindDocument_roots accepts elements h] at hq
    have hbelow := sameShape_below 0 0 hplain h (by rwa [sectionsAfter_zero h]) q.node hq
    rw [Node.sections, hs] at hbelow
    exact accepts_of_firstPair hbelow hpair

/-- There are as many findings of missing and misplaced elements as nodes without a section whose
ancestors all have one. -/
theorem length_missing_misplaced (h : Regular d.sections) :
    (missingElements (bindDocument accepts d elements)
        (searchMisplaced accepts (bindDocument accepts d elements) d).found ++
      misplacedSections
        (searchMisplaced accepts (bindDocument accepts d elements) d).found).length =
    ((bindDocument accepts d elements).unboundNodes.filter fun p =>
      p.ancestors.all Node.isBound).length := by
  rw [(findings_perm_verdicts h).length_eq, (verdicts_cover h).length_eq, List.length_flatMap,
    List.length_flatMap]
  simp only [List.length_map]

variable (accepts elements) in
/-- **Nothing is missing or misplaced exactly if every node has a section.** -/
theorem missing_misplaced_eq_nil_iff (h : Regular d.sections) :
    (missingElements (bindDocument accepts d elements)
        (searchMisplaced accepts (bindDocument accepts d elements) d).found = [] ∧
      misplacedSections (searchMisplaced accepts (bindDocument accepts d elements) d).found = []) ↔
    ∀ n ∈ allNodes (bindDocument accepts d elements).roots, n.isBound = true := by
  rw [← List.append_eq_nil_iff, ← List.length_eq_zero_iff, length_missing_misplaced h,
    List.length_eq_zero_iff, List.filter_eq_nil_iff, Binding.unboundNodes]
  simp only [List.all_eq_true]
  constructor
  · intro hnone
    refine isBound_of_outermost (fun _ hm => absurd hm List.not_mem_nil) fun p hp hancestors => ?_
    by_contra hunbound
    exact hnone p (List.mem_filter.2 ⟨hp, by simpa using hunbound⟩) hancestors
  · intro hall p hp
    obtain ⟨hp, hunbound⟩ := List.mem_filter.1 hp
    rw [hall p.node (node_mem_allNodes hp)] at hunbound
    cases hunbound

/-- **Nothing is unexpected exactly if every section has a node**, where no element has additional
sections. -/
theorem unexpected_eq_nil_iff (h : Regular d.sections)
    (hclosed : ∀ q ∈ (bindDocument accepts d elements).nodes,
      q.node.element.allowAdditional = false) :
    unexpectedSections (bindDocument accepts d elements) d = [] ↔
      boundSections (bindDocument accepts d elements).roots = walkAll d.sections := by
  have hsub := boundSections_roots_sublist accepts elements h
  constructor
  · intro hnone
    refine hsub.eq_of_length_le (List.Nodup.length_le_of_subset h.nodup fun s hs => ?_)
    rw [Document.allSections, ← map_self_walkAllUnder d.sections []] at hs
    obtain ⟨p, hp, rfl⟩ := List.mem_map.1 hs
    by_contra hfree
    rw [mem_boundSections_iff, ← not_free_iff, not_not] at hfree
    refine List.ne_nil_of_mem ((mem_unexpectedSections h).2 ⟨p, hp, ⟨hfree, ?_⟩, rfl⟩) hnone
    rintro ⟨-, -, q, hq, -, hallow⟩
    rw [hclosed q hq] at hallow
    cases hallow
  · intro hall
    refine List.eq_nil_iff_forall_not_mem.2 fun f hf => ?_
    obtain ⟨p, hp, ⟨hfree, -⟩, -⟩ := (mem_unexpectedSections h).1 hf
    refine not_free_iff.2 (mem_boundSections_iff.1 ?_) hfree
    rw [hall]
    exact self_mem_walkAll hp

variable (accepts) in
/-- **There are no findings exactly in documents of the shape of the schema**, where each element
has to occur exactly once and none has additional sections. -/
theorem structureFindings_eq_nil_iff (h : Regular d.sections) (hplain : Plain elements) :
    structureFindings accepts (bindDocument accepts d elements) d elements = [] ↔
      SameShape accepts elements d.sections := by
  have hnodes : ∀ q ∈ (bindDocument accepts d elements).nodes,
      q.node.element.isRepeatable = false ∧ q.node.element.allowAdditional = false := by
    intro q hq
    have hq := node_mem_allNodes hq
    rw [bindDocument_roots accepts elements h] at hq
    exact plain_of_mem_allNodes hplain q.node hq
  have hshape := sameShape_iff_complete accepts 0 0 hplain h
  rw [sectionsAfter_zero h, ← bindDocument_roots accepts elements h] at hshape
  have hmissing := missing_misplaced_eq_nil_iff accepts elements h
  have hunexpected := unexpected_eq_nil_iff h fun q hq => (hnodes q hq).2
  unfold structureFindings
  simp only [List.append_eq_nil_iff]
  constructor
  · rintro ⟨⟨⟨⟨-, hun⟩, hmiss⟩, hmis⟩, -⟩
    exact hshape.2 ⟨hmissing.1 ⟨hmiss, hmis⟩, hunexpected.1 hun⟩
  · intro hsame
    have hcomplete := hshape.1 hsame
    obtain ⟨hmiss, hmis⟩ := hmissing.2 hcomplete.bound
    refine ⟨⟨⟨⟨?_, hunexpected.2 hcomplete.all⟩, hmiss⟩, hmis⟩, ?_⟩
    · unfold wrongFirsts
      rw [List.map_eq_nil_iff, List.filter_eq_nil_iff]
      intro pair hpair
      rw [accepts_of_mem_firstPairs h hplain hsame pair hpair]
      simp
    · unfold tooFewSections
      rw [List.map_eq_nil_iff, List.filter_eq_nil_iff]
      intro q hq
      rw [(hnodes q (List.mem_filter.1 hq).1).1]
      simp

end

end Outline

import Outline.Proofs.Binding.Each
import Outline.Proofs.Structure.Missing
import Outline.Proofs.Structure.Scopes
import Outline.Proofs.Structure.Unexpected

/-!
# First sections

The first pass compares the first section of a scope with the first element expected there, and does
not look at the nodes. **What it reports has another reason as well**
(`firstsExplained_structureFindings`): the element has no section, and is reported as missing, or it
took a later section, and the first one is left to no element of its scope; that one is reported as
unexpected then, unless it lies in a section with additional ones.

* `expectedIn`, `WrongFirst`: what is expected in a scope, and scopes that begin otherwise;
* `first_of_take_eq_nil`, `free_of_take_ne_nil`: the two reasons;
* `FirstsExplained`: what is said about the first pass.
-/

namespace Outline

/-! ## Scopes that begin otherwise -/

/-- The elements expected in the scope that lies in the given nodes. -/
def expectedIn (elements : List Element) : List Node → List Element
  | [] => elements
  | n :: _ => n.element.children

/-- The name of the place that a scope lies in. -/
def headingAbove (around : List Node) : String :=
  (around.head?.map Node.headingText).getD documentRoot

/-- **The scope that lies in the given nodes begins otherwise**: its first element has to occur, and
does not accept the heading of its first section. -/
structure WrongFirst (accepts : Accepts) (d : Document) (elements : List Element) (b : Binding)
    (around : List Node) (e : Element) (s : Section) : Prop where
  scope : around ∈ b.places
  expected : e ∈ (expectedIn elements around).head?
  required : e.isRequired = true
  first : s ∈ (b.scopeIn d around).sections.head?
  rejected : accepts e.heading s.heading = false

/-- **The first element of a scope is missing**: the first node of the scope has no section, is not
among the misplaced ones, and is reported as missing. -/
structure MissingFirst (accepts : Accepts) (d : Document) (b : Binding) (findings : List Finding)
    (around : List Node) (n : Node) : Prop where
  first : n ∈ (b.scopeIn d around).siblings.head?
  unbound : ⟨n, around⟩ ∈ b.unboundNodes
  notMisplaced : (Placed.mk n around).isMisplaced (searchMisplaced accepts b d).found = false
  reported : .missing (headingAbove around) n.element (Placed.mk n around).location ∈
    ofPass .missing findings

/-- **What is said about the first pass**, given the nodes and the findings. It reports the scopes
that begin otherwise. In such a scope the first element is missing, or the first section has no node
and is reported as unexpected or lies in one with additional sections. Where no element allows
these, the pass reports nothing if the next two do not. -/
structure FirstsExplained (accepts : Accepts) (d : Document) (elements : List Element) (b : Binding)
    (findings : List Finding) : Prop where
  reported : ∀ f, f ∈ ofPass .wrongFirst findings ↔ ∃ around e s,
    WrongFirst accepts d elements b around e s ∧ .wrongFirst (headingAbove around) s.heading e = f
  explained : ∀ around e s, WrongFirst accepts d elements b around e s →
    (∃ n, n.element = e ∧ MissingFirst accepts d b findings around n) ∨
      ∃ p ∈ d.placedSections, p.self = s ∧
        (Fate.reported.Meets b findings p ∨ Fate.tolerated.Meets b findings p)
  silent : EachElement (fun e => e.allowAdditional = false) elements →
    ofPass .unexpected findings = [] → ofPass .missing findings = [] →
      ofPass .wrongFirst findings = []

section

variable {accepts : Accepts} {d : Document} {elements : List Element}

theorem ofPass_wrongFirst (b : Binding) :
    ofPass .wrongFirst (structureFindings accepts b d elements) =
      wrongFirsts accepts (firstPairs b d elements) := by
  simp [ofPass_structureFindings]

/-- The first pairs, by the places of their scopes. -/
theorem firstPairs_eq_filterMap (b : Binding) : firstPairs b d elements = b.places.filterMap fun around =>
    firstPair? (headingAbove around) (expectedIn elements around)
      (b.scopeIn d around).sections := by
  rw [firstPairs, Binding.places, List.filterMap_cons, List.filterMap_map, Binding.boundNodes,
    List.filterMap_filter]
  have hbelow : ∀ p : Placed,
      (p.node.boundTo?.bind fun s =>
        firstPair? s.heading.text p.node.element.children s.children) =
      if p.node.isBound then firstPair? (headingAbove (p.node :: p.ancestors))
        (expectedIn elements (p.node :: p.ancestors))
        (b.scopeIn d (p.node :: p.ancestors)).sections else none := by
    intro p
    unfold Node.isBound
    cases hp : p.node.boundTo? with
    | none => rfl
    | some s => simp [headingAbove, Node.headingText, expectedIn, Binding.scopeIn, Node.sections, hp]
  have htop : firstPair? documentRoot elements d.sections =
      firstPair? (headingAbove []) (expectedIn elements []) (b.scopeIn d []).sections := rfl
  simp only [hbelow, htop]
  cases firstPair? (headingAbove []) (expectedIn elements []) (b.scopeIn d []).sections <;> rfl

theorem firstPair?_eq_some_iff {parent : String} {expected : List Element}
    {sections : List Section} {pair : FirstPair} :
    firstPair? parent expected sections = some pair ↔ ∃ e ∈ expected.head?, ∃ s ∈ sections.head?,
      e.isRequired = true ∧ ⟨parent, e, s.heading⟩ = pair := by
  cases expected with
  | nil => simp [firstPair?]
  | cons e es =>
    cases sections with
    | nil => simp [firstPair?]
    | cons s ss => simp [firstPair?]

/-- **The first pass reports the scopes that begin otherwise.** -/
theorem mem_wrongFirsts (b : Binding) {f : Finding} :
    f ∈ wrongFirsts accepts (firstPairs b d elements) ↔ ∃ around e s,
      WrongFirst accepts d elements b around e s ∧
        .wrongFirst (headingAbove around) s.heading e = f := by
  rw [wrongFirsts, List.mem_map, firstPairs_eq_filterMap]
  simp only [List.mem_filter, List.mem_filterMap, firstPair?_eq_some_iff, Bool.not_eq_true']
  constructor
  · rintro ⟨_, ⟨⟨around, hmem, e, he, s, hs, hreq, rfl⟩, hrejects⟩, rfl⟩
    exact ⟨around, e, s, ⟨hmem, he, hreq, hs, hrejects⟩, rfl⟩
  · rintro ⟨around, e, s, h, rfl⟩
    exact ⟨_, ⟨⟨around, h.scope, e, h.expected, s, h.first, h.required, rfl⟩, h.rejected⟩, rfl⟩

/-! ## One scope -/

/-- The nodes of the scope that lies in the given nodes, by its elements and sections. -/
theorem siblings_of_mem_places (h : Regular d.sections) {around : List Node}
    (hmem : around ∈ (bindDocument accepts d elements).places) :
    Regular ((bindDocument accepts d elements).scopeIn d around).sections ∧
      ((bindDocument accepts d elements).scopeIn d around).siblings =
        matchSiblings accepts (expectedIn elements around) 0
          ((bindDocument accepts d elements).scopeIn d around).sections 0 := by
  rcases mem_places.1 hmem with rfl | ⟨p, hp, s, hps, rfl⟩
  · exact ⟨h, bindDocument_roots accepts elements h⟩
  · have hnode := node_mem_allNodes hp
    rw [bindDocument_roots accepts elements h] at hnode
    exact children_eq_matchSiblings accepts elements h p.node hnode

/-- A node of a scope stands in the nodes that the scope lies in. -/
theorem mem_nodes_of_mem_siblings {b : Binding} {around : List Node} (hmem : around ∈ b.places)
    {n : Node} (hn : n ∈ (b.scopeIn d around).siblings) : ⟨n, around⟩ ∈ b.nodes := by
  rcases mem_places.1 hmem with rfl | ⟨p, hp, s, hps, rfl⟩
  · exact mem_walkNodes_of_mem hn []
  · exact mem_walkNodes_children hp hn

/-- The sections of a scope are sections of the document, and **a node that one of them is bound to
is a node of the scope**. -/
theorem mem_siblings_of_boundTo (h : Regular d.sections) {around : List Node}
    (hmem : around ∈ (bindDocument accepts d elements).places) {s : Section}
    (hs : s ∈ ((bindDocument accepts d elements).scopeIn d around).sections) :
    (∃ p ∈ d.placedSections, p.self = s) ∧
      ∀ q ∈ (bindDocument accepts d elements).nodes, q.node.boundTo? = some s →
        q.node ∈ ((bindDocument accepts d elements).scopeIn d around).siblings := by
  rcases mem_places.1 hmem with rfl | ⟨p, hp, t, hpt, rfl⟩
  · have hplaced := mem_walkAllUnder_of_mem hs []
    exact ⟨⟨_, hplaced, rfl⟩, fun q hq hqs => mem_roots_of_boundTo h hq hqs hplaced⟩
  · obtain ⟨outer, -, ht⟩ := placed_of_mem_nodes h hp hpt
    have hsub : s ∈ t.children := by
      have hsections : s ∈ p.node.sections := hs
      rwa [Node.sections, hpt] at hsections
    have hplaced := mem_walkAllUnder_children ht hsub
    exact ⟨⟨_, hplaced, rfl⟩, fun q hq hqs => mem_children_of_boundTo h hp hpt hq hqs hplaced⟩

/-- **A first element that takes nothing is missing**: it accepts no section of its scope, so that
none is claimed for it. -/
theorem first_of_take_eq_nil (h : Regular d.sections) {around : List Node} {e : Element}
    {es : List Element} (hmem : around ∈ (bindDocument accepts d elements).places)
    (hexpected : expectedIn elements around = e :: es) (hrequired : e.isRequired = true)
    (htake : e.take accepts
      (sectionsAfter 0 ((bindDocument accepts d elements).scopeIn d around).sections) = []) :
    MissingFirst accepts d (bindDocument accepts d elements)
      (structureFindings accepts (bindDocument accepts d elements) d elements) around
      (e.unbound 0) := by
  obtain ⟨hreg, hsiblings⟩ := siblings_of_mem_places h hmem
  have hrejects := Element.take_eq_nil_iff.1 htake
  rw [sectionsAfter_zero hreg] at hrejects
  rw [hexpected, matchSiblings_cons, htake, e.nodes_of_nil, if_pos hrequired] at hsiblings
  have hbound : (e.unbound 0).boundTo? = none := by rw [e.unbound_eq]
  have helement : (e.unbound 0).element = e := by rw [e.unbound_eq]
  -- the verdict on the first node of the scope
  have hnone : firstFree? accepts (bindDocument accepts d elements)
      ((bindDocument accepts d elements).scopeIn d around).sections [] (e.unbound 0) = none := by
    rw [firstFree?_eq_none_iff, helement]
    intro s hs haccepts
    exact absurd haccepts (by simp [hrejects s hs])
  have hverdict : (⟨e.unbound 0, none, ""⟩ : Verdict) ∈
      (bindDocument accepts d elements).verdictsIn accepts d around := by
    rw [Binding.verdictsIn, hsiblings, List.singleton_append, verdicts_cons_unbound hbound, hnone]
    exact List.mem_cons_self
  have hmisplaced := isMisplaced_placed h hmem hverdict
  have hhead : e.unbound 0 ∈
      ((bindDocument accepts d elements).scopeIn d around).siblings.head? := by
    rw [hsiblings]
    rfl
  have hunbound : ⟨e.unbound 0, around⟩ ∈ (bindDocument accepts d elements).unboundNodes := by
    refine List.mem_filter.2 ⟨mem_nodes_of_mem_siblings hmem (List.mem_of_mem_head? hhead), ?_⟩
    simp [Node.isBound, hbound]
  have haround : around.all Node.isBound = true := by
    rcases mem_places.1 hmem with rfl | ⟨p, hp, s, hps, rfl⟩
    · rfl
    · have hp' : p.node.isBound = true := by simp [Node.isBound, hps]
      rw [List.all_cons, hp', List.all_eq_true.2 (isBound_of_ancestor h hp hp'), Bool.true_and]
  refine ⟨hhead, hunbound, hmisplaced, ?_⟩
  rw [ofPass_missing, missingElements, List.mem_map]
  refine ⟨_, List.mem_filter.2 ⟨hunbound, ?_⟩, rfl⟩
  rw [Bool.and_eq_true, Bool.not_eq_true']
  exact ⟨hmisplaced, haround⟩

/-- **Where the first element takes a section, the first one of its scope has a node only if the
element accepts it**: all later elements look behind what was taken. -/
theorem free_of_take_ne_nil (h : Regular d.sections) {around : List Node} {e : Element}
    {es : List Element} (hmem : around ∈ (bindDocument accepts d elements).places)
    (hexpected : expectedIn elements around = e :: es) {s : Section} {ss : List Section}
    (hsections : ((bindDocument accepts d elements).scopeIn d around).sections = s :: ss)
    (hrejected : accepts e.heading s.heading = false)
    (htake : e.take accepts
      (sectionsAfter 0 ((bindDocument accepts d elements).scopeIn d around).sections) ≠ []) :
    Free (bindDocument accepts d elements) s := by
  obtain ⟨hreg, hsiblings⟩ := siblings_of_mem_places h hmem
  have hs : s ∈ ((bindDocument accepts d elements).scopeIn d around).sections := by
    rw [hsections]
    exact List.mem_cons_self
  intro q hq hqs
  have hmemq := (mem_siblings_of_boundTo h hmem hs).2 q hq hqs
  rw [hsiblings, hexpected, matchSiblings_cons, List.mem_append] at hmemq
  rw [hsections] at hmemq htake hreg
  rw [sectionsAfter_zero hreg] at hmemq htake
  have hinc := hreg.siblings
  obtain ⟨hfirst, -⟩ := List.pairwise_cons.1 hinc
  have hsub := e.take_sublist accepts (s :: ss)
  generalize htaken : e.take accepts (s :: ss) = taken at hmemq htake hsub
  rcases hmemq with hmemq | hmemq
  · -- the element would have taken a section that it rejects
    have hin : s ∈ taken := by
      rw [← e.filterMap_boundTo_nodes (matchBelow accepts e) 0 taken]
      exact List.mem_filterMap.2 ⟨q.node, hmemq, hqs⟩
    rw [← htaken] at hin
    exact absurd (Element.accepts_of_mem_take hin) (by simp [hrejected])
  · have hlater : lastLine 0 taken < s.startLine := by
      have hbound := filterMap_boundTo_matchSiblings accepts es 1 (lastLine 0 taken) hinc
      exact (mem_sectionsAfter.1 (hbound.subset (List.mem_filterMap.2 ⟨q.node, hmemq, hqs⟩))).2
    obtain ⟨t, ht⟩ := List.exists_mem_of_ne_nil taken htake
    have hle := (startLine_le_lastLine (hinc.sublist hsub)
      (fun u hu => hreg.positive u ((sublist_walkAll _).subset (hsub.subset hu)))).2 t ht
    rcases List.mem_cons.1 (hsub.subset ht) with rfl | ht
    · omega
    · have := hfirst t ht
      omega

/-! ## All scopes -/

/-- **A scope that begins otherwise is reported by another pass**, or begins with a section that is
welcome as an additional one. -/
theorem WrongFirst.explained (h : Regular d.sections) {around : List Node} {e : Element}
    {s : Section} (hwrong : WrongFirst accepts d elements (bindDocument accepts d elements) around
      e s) :
    MissingFirst accepts d (bindDocument accepts d elements)
        (structureFindings accepts (bindDocument accepts d elements) d elements) around
        (e.unbound 0) ∨
      ∃ p ∈ d.placedSections, p.self = s ∧ Free (bindDocument accepts d elements) p.self := by
  obtain ⟨hmem, he, hrequired, hs, hrejected⟩ := hwrong
  obtain ⟨es, hexpected⟩ := List.head?_eq_some_iff.1 he
  obtain ⟨ss, hsections⟩ := List.head?_eq_some_iff.1 hs
  by_cases htake : e.take accepts
      (sectionsAfter 0 ((bindDocument accepts d elements).scopeIn d around).sections) = []
  · exact Or.inl (first_of_take_eq_nil h hmem hexpected hrequired htake)
  · obtain ⟨p, hp, rfl⟩ := (mem_siblings_of_boundTo h hmem (List.mem_of_mem_head? hs)).1
    exact Or.inr ⟨p, hp, rfl, free_of_take_ne_nil h hmem hexpected hsections hrejected htake⟩

/-- Where no element allows additional sections, none are welcome. -/
theorem not_welcome (h : Regular d.sections)
    (hnone : EachElement (fun e => e.allowAdditional = false) elements) (p : PlacedSection) :
    ¬ Welcome (bindDocument accepts d elements) p := by
  rintro ⟨s, -, q, hq, -, hallow⟩
  have hnode := node_mem_allNodes hq
  rw [bindDocument_roots accepts elements h] at hnode
  exact absurd hallow (by simp [(hnone.of_mem_allNodes q.node hnode).1])

end

/-- **In a document that was read, what the first pass reports has another reason as well.** -/
theorem firstsExplained_structureFindings (accepts : Accepts) {text path : String} {d : Document}
    (h : parseDocument text path = .ok d) (elements : List Element) :
    FirstsExplained accepts d elements (bindDocument accepts d elements)
      (structureFindings accepts (bindDocument accepts d elements) d elements) := by
  have hreg := regular_of_parseDocument h
  refine ⟨fun f => ?_, fun around e s hwrong => ?_, fun hnone hunexpected hmissing => ?_⟩
  · rw [ofPass_wrongFirst]
    exact mem_wrongFirsts _
  · rcases hwrong.explained hreg with hmissing | ⟨p, hp, hps, hfree⟩
    · exact Or.inl ⟨_, by rw [e.unbound_eq], hmissing⟩
    · refine Or.inr ⟨p, hp, hps, ?_⟩
      by_cases hwelcome : Welcome (bindDocument accepts d elements) p
      · exact Or.inr ⟨hfree, hwelcome⟩
      · refine Or.inl ⟨hfree, hwelcome, ?_⟩
        rw [ofPass_unexpected]
        exact filter_unexpectedSections hreg hp hfree hwelcome
  · rw [ofPass_unexpected, unexpectedSections_eq_nil_iff_welcome hreg] at hunexpected
    rw [ofPass_wrongFirst, List.eq_nil_iff_forall_not_mem]
    intro f hf
    obtain ⟨around, e, s, hwrong, -⟩ := (mem_wrongFirsts _).1 hf
    rcases hwrong.explained hreg with hfirst | ⟨p, hp, -, hfree⟩
    · exact List.ne_nil_of_mem hfirst.reported hmissing
    · exact not_welcome hreg hnone p (hunexpected p hp hfree)

theorem firstsExplained_sample : parseDocument sampleText "" = .ok sampleDocument ∧
    FirstsExplained (HeadingSpec.accepts "") sampleDocument sampleElements
      (bindDocument (HeadingSpec.accepts "") sampleDocument sampleElements)
      (structureFindings (HeadingSpec.accepts "")
        (bindDocument (HeadingSpec.accepts "") sampleDocument sampleElements) sampleDocument
        sampleElements) :=
  ⟨parseDocument_sample, firstsExplained_structureFindings _ parseDocument_sample sampleElements⟩

end Outline

import Outline.Proofs.Structure.Shape

/-!
# Scopes in order

The five passes look at all nodes and all sections of a document. What they find can be told from
the scopes one by one: **a document has no findings exactly if each of its scopes is in order**
(`structureFindings_eq_nil_iff_inOrder`).

* `FirstFits`: the first section of a scope is the first one expected;
* `Covers`: nodes of a scope that leave none of its sections out;
* `InOrder`: nodes of a document, scope by scope;
* `unexpectedSections_eq_nil_iff`: where sections without a node are welcome.
-/

namespace Outline

/-- The first section of a scope fits the first element, if that has to occur. -/
def FirstFits (accepts : Accepts) (elements : List Element) (sections : List Section) : Prop :=
  ∀ e ∈ elements.head?, ∀ s ∈ sections.head?, e.isRequired = true →
    accepts e.heading s.heading = true

/-- The nodes of a scope leave none of its sections out. -/
def Covers (nodes : List Node) (sections : List Section) : Prop :=
  nodes.filterMap Node.boundTo? = sections

/-- The node lies below an element with additional sections, or is one of such an element. -/
def Placed.Open (p : Placed) : Prop :=
  ∃ m ∈ p.node :: p.ancestors, m.element.allowAdditional = true

/-- **Nodes whose scopes are in order**: all of them have a section; where an element is repeatable,
it has enough; the first section of each scope is the first one expected; and no section is left out
but below elements with additional ones. -/
structure InOrder (accepts : Accepts) (d : Document) (elements : List Element) (b : Binding) :
    Prop where
  bound : ∀ p ∈ b.nodes, p.node.isBound = true
  enough : ∀ p ∈ b.nodes, p.node.element.isRepeatable = true → p.node.matchIndex = 0 →
    p.node.element.least.value ≤ p.node.matchCount
  firstTop : FirstFits accepts elements d.sections
  first : ∀ p ∈ b.nodes, FirstFits accepts p.node.element.children p.node.sections
  coveredTop : Covers b.roots d.sections
  covered : ∀ p ∈ b.nodes, p.Open ∨ Covers p.node.children p.node.sections

/-! ## First sections -/

section

variable {accepts : Accepts}

theorem firstFits_iff (parent : String) {elements : List Element} {sections : List Section} :
    FirstFits accepts elements sections ↔ ∀ pair, firstPair? parent elements sections = some pair →
      accepts pair.expected.heading pair.found = true := by
  unfold FirstFits
  cases elements with
  | nil => simp [firstPair?]
  | cons e es =>
    cases sections with
    | nil => simp [firstPair?]
    | cons s ss => simp [firstPair?]

theorem wrongFirsts_eq_nil_iff {b : Binding} {d : Document} {elements : List Element} :
    wrongFirsts accepts (firstPairs b d elements) = [] ↔ FirstFits accepts elements d.sections ∧
      ∀ p ∈ b.nodes, FirstFits accepts p.node.element.children p.node.sections := by
  have hnode : ∀ p : Placed, FirstFits accepts p.node.element.children p.node.sections ↔
      ∀ pair, (p.node.boundTo?.bind fun s =>
          firstPair? s.heading.text p.node.element.children s.children) = some pair →
        accepts pair.expected.heading pair.found = true := by
    intro p
    unfold Node.sections
    cases p.node.boundTo? with
    | none => simp [FirstFits]
    | some s => exact firstFits_iff s.heading.text
  unfold wrongFirsts firstPairs
  rw [List.map_eq_nil_iff, List.filter_eq_nil_iff, List.forall_mem_append,
    firstFits_iff documentRoot]
  simp only [hnode, Option.mem_toList, List.mem_filterMap, Bool.not_eq_true', Bool.not_eq_false]
  exact and_congr_right fun _ => ⟨fun h p hp pair hpair => h pair ⟨p, hp, hpair⟩,
    fun h pair ⟨p, hp, hpair⟩ => h p hp pair hpair⟩

end

/-! ## Sections without a node -/

section

variable {accepts : Accepts} {d : Document} {elements : List Element}

theorem covers_iff {nodes : List Node} {sections : List Section}
    (hsub : (nodes.filterMap Node.boundTo?).Sublist sections) (hreg : Regular sections) :
    Covers nodes sections ↔ ∀ s ∈ sections, ∃ n ∈ nodes, n.boundTo? = some s := by
  constructor
  · intro h s hs
    rw [← h] at hs
    exact List.mem_filterMap.1 hs
  · intro h
    have hnodup := hreg.nodup.sublist (sublist_walkAll sections)
    refine hsub.eq_of_length_le (hnodup.length_le_of_subset fun s hs => ?_)
    exact List.mem_filterMap.2 (h s hs)

theorem roots_sublist (h : Regular d.sections) :
    ((bindDocument accepts d elements).roots.filterMap Node.boundTo?).Sublist d.sections := by
  rw [bindDocument_roots accepts elements h]
  exact (filterMap_boundTo_matchSiblings accepts elements 0 0 h.siblings).trans
    (sectionsAfter_sublist 0 d.sections)

theorem children_sublist (h : Regular d.sections) {p : Placed}
    (hp : p ∈ (bindDocument accepts d elements).nodes) : Regular p.node.sections ∧
      (p.node.children.filterMap Node.boundTo?).Sublist p.node.sections := by
  have hnode := node_mem_allNodes hp
  rw [bindDocument_roots accepts elements h] at hnode
  obtain ⟨hreg, hchildren⟩ := children_eq_matchSiblings accepts elements h p.node hnode
  refine ⟨hreg, ?_⟩
  rw [hchildren]
  exact (filterMap_boundTo_matchSiblings accepts _ 0 0 hreg.siblings).trans
    (sectionsAfter_sublist 0 _)

/-- The node of a section at the top stands at the top. -/
theorem mem_roots_of_boundTo (h : Regular d.sections) {q : Placed}
    (hq : q ∈ (bindDocument accepts d elements).nodes) {t : Section}
    (hqt : q.node.boundTo? = some t) (ht : ⟨t, []⟩ ∈ d.placedSections) :
    q.node ∈ (bindDocument accepts d elements).roots := by
  obtain ⟨outer, houter, hmem⟩ := placed_of_mem_nodes h hq hqt
  obtain rfl : outer = [] := congrArg PlacedSection.ancestors (h.placed_eq hmem ht rfl)
  rcases linked_of_mem_walkNodes hq with ⟨-, hnode⟩ | ⟨r, -, hr, -⟩
  · exact hnode
  · rw [hr] at houter
    cases houter

/-- The node of a subsection stands below the node of the section. -/
theorem mem_children_of_boundTo (h : Regular d.sections) {p q : Placed}
    (hp : p ∈ (bindDocument accepts d elements).nodes) {s : Section}
    (hps : p.node.boundTo? = some s) (hq : q ∈ (bindDocument accepts d elements).nodes)
    {t : Section} (hqt : q.node.boundTo? = some t) {around : List Section}
    (ht : ⟨t, s :: around⟩ ∈ d.placedSections) : q.node ∈ p.node.children := by
  obtain ⟨outer, houter, hmem⟩ := placed_of_mem_nodes h hq hqt
  obtain rfl : outer = s :: around := congrArg PlacedSection.ancestors (h.placed_eq hmem ht rfl)
  rcases linked_of_mem_walkNodes hq with ⟨hnil, -⟩ | ⟨r, hr, hancestors, hnode⟩
  · rw [hnil] at houter
    cases houter
  · rw [hancestors, List.map_cons, List.map_cons] at houter
    rwa [eq_of_boundTo h hp hr hps (List.cons.inj houter).1]

/-- What lies in the section of a node is welcome exactly below an element with additional
sections. -/
theorem open_iff_welcome (h : Regular d.sections) {p : Placed}
    (hp : p ∈ (bindDocument accepts d elements).nodes) {s : Section}
    (hps : p.node.boundTo? = some s) {around : List Section}
    (hs : ⟨s, around⟩ ∈ d.placedSections) (t : Section) :
    p.Open ↔ Welcome (bindDocument accepts d elements) ⟨t, s :: around⟩ := by
  obtain ⟨outer, houter, hmem⟩ := placed_of_mem_nodes h hp hps
  obtain rfl : outer = around := congrArg PlacedSection.ancestors (h.placed_eq hmem hs rfl)
  have hsections : (p.node :: p.ancestors).map Node.boundTo? = (s :: outer).map some := by
    rw [List.map_cons, List.map_cons, hps, houter]
  have hmet : ∀ m ∈ p.node :: p.ancestors,
      ∃ r ∈ (bindDocument accepts d elements).nodes, r.node = m := by
    refine List.forall_mem_cons.2 ⟨⟨p, hp, rfl⟩, fun m hm => ?_⟩
    exact List.mem_map.1
      ((mem_allNodes_of_ancestor hp m hm).resolve_right List.not_mem_nil)
  constructor
  · rintro ⟨m, hm, hallow⟩
    have hbound : m.boundTo? ∈ (s :: outer).map some := hsections ▸ List.mem_map_of_mem hm
    obtain ⟨u, hu, hmu⟩ := List.mem_map.1 hbound
    obtain ⟨r, hr, rfl⟩ := hmet m hm
    exact ⟨u, hu, r, hr, hmu.symm, hallow⟩
  · rintro ⟨u, hu, q, hq, hqu, hallow⟩
    have hbound : some u ∈ (p.node :: p.ancestors).map Node.boundTo? :=
      hsections ▸ List.mem_map_of_mem hu
    obtain ⟨m, hm, hmu⟩ := List.mem_map.1 hbound
    obtain ⟨r, hr, rfl⟩ := hmet m hm
    rw [eq_of_boundTo h hq hr hqu hmu] at hallow
    exact ⟨r.node, hm, hallow⟩

theorem unexpectedSections_eq_nil_iff_welcome (h : Regular d.sections) :
    unexpectedSections (bindDocument accepts d elements) d = [] ↔ ∀ p ∈ d.placedSections,
      Free (bindDocument accepts d elements) p.self →
        Welcome (bindDocument accepts d elements) p := by
  rw [List.eq_nil_iff_forall_not_mem]
  constructor
  · intro hnone p hp hfree
    by_contra hwelcome
    exact hnone _ ((mem_unexpectedSections h).2 ⟨p, hp, ⟨hfree, hwelcome⟩, rfl⟩)
  · intro hall f hf
    obtain ⟨p, hp, ⟨hfree, hwelcome⟩, -⟩ := (mem_unexpectedSections h).1 hf
    exact hwelcome (hall p hp hfree)

/-- Where every scope is covered or open, a section without a node is welcome. -/
theorem welcome_of_covered (h : Regular d.sections)
    (htop : Covers (bindDocument accepts d elements).roots d.sections)
    (hbelow : ∀ p ∈ (bindDocument accepts d elements).nodes,
      p.Open ∨ Covers p.node.children p.node.sections) :
    ∀ (around : List Section) (t : Section), ⟨t, around⟩ ∈ d.placedSections →
      Free (bindDocument accepts d elements) t →
        Welcome (bindDocument accepts d elements) ⟨t, around⟩ := by
  intro around
  induction around with
  | nil =>
    intro t ht hfree
    rcases linked_of_mem_walkAllUnder ht with ⟨-, hmem⟩ | ⟨q, -, hq, -⟩
    · obtain ⟨n, hn, hnt⟩ := (covers_iff (roots_sublist h) h).1 htop t hmem
      exact absurd hnt (hfree ⟨n, []⟩ (mem_walkNodes_of_mem hn []))
    · cases hq
  | cons s around ih =>
    intro t ht hfree
    rcases linked_of_mem_walkAllUnder ht with ⟨hnil, -⟩ | ⟨u, hu, hancestors, hmem⟩
    · cases hnil
    · obtain ⟨rfl, rfl⟩ := List.cons.inj hancestors
      by_cases hbound : Free (bindDocument accepts d elements) u.self
      · -- then the section that it lies in is welcome, and so is what lies in it
        obtain ⟨v, hv, hwelcome⟩ := ih u.self hu hbound
        exact ⟨v, List.mem_cons_of_mem _ hv, hwelcome⟩
      · obtain ⟨p, hp, hps⟩ := not_free_iff.1 hbound
        rcases hbelow p hp with hopen | hcovers
        · exact (open_iff_welcome h hp hps hu t).1 hopen
        · obtain ⟨hreg, hsub⟩ := children_sublist h hp
          have hmem : t ∈ p.node.sections := by rwa [Node.sections, hps]
          obtain ⟨n, hn, hnt⟩ := (covers_iff hsub hreg).1 hcovers t hmem
          exact absurd hnt (hfree _ (mem_walkNodes_children hp hn))

/-- **Nothing is unexpected exactly if every scope is covered or open**, and the top is covered. -/
theorem unexpectedSections_eq_nil_iff (h : Regular d.sections) :
    unexpectedSections (bindDocument accepts d elements) d = [] ↔
      Covers (bindDocument accepts d elements).roots d.sections ∧
        ∀ p ∈ (bindDocument accepts d elements).nodes,
          p.Open ∨ Covers p.node.children p.node.sections := by
  rw [unexpectedSections_eq_nil_iff_welcome h]
  constructor
  · intro hall
    refine ⟨(covers_iff (roots_sublist h) h).2 fun t ht => ?_, fun p hp => or_iff_not_imp_left.2
      fun hclosed => ?_⟩
    · have hplaced := mem_walkAllUnder_of_mem ht []
      have hbound : ¬ Free (bindDocument accepts d elements) t := fun hfree => by
        obtain ⟨s, hs, -⟩ := hall _ hplaced hfree
        exact absurd hs List.not_mem_nil
      obtain ⟨q, hq, hqt⟩ := not_free_iff.1 hbound
      exact ⟨q.node, mem_roots_of_boundTo h hq hqt hplaced, hqt⟩
    · obtain ⟨hreg, hsub⟩ := children_sublist h hp
      refine (covers_iff hsub hreg).2 fun t ht => ?_
      unfold Node.sections at ht
      cases hps : p.node.boundTo? with
      | none =>
        rw [hps] at ht
        exact absurd ht List.not_mem_nil
      | some s =>
        rw [hps] at ht
        obtain ⟨around, -, hs⟩ := placed_of_mem_nodes h hp hps
        have hplaced := mem_walkAllUnder_children hs ht
        have hbound : ¬ Free (bindDocument accepts d elements) t := fun hfree =>
          hclosed ((open_iff_welcome h hp hps hs t).2 (hall _ hplaced hfree))
        obtain ⟨q, hq, hqt⟩ := not_free_iff.1 hbound
        exact ⟨q.node, mem_children_of_boundTo h hp hps hq hqt hplaced, hqt⟩
  · rintro ⟨htop, hbelow⟩ ⟨t, around⟩ ht hfree
    exact welcome_of_covered h htop hbelow around t ht hfree

/-! ## All passes -/

theorem tooFewSections_eq_nil_iff {b : Binding} : tooFewSections b = [] ↔
    ∀ p ∈ b.boundNodes, p.node.element.isRepeatable = true → p.node.matchIndex = 0 →
      p.node.element.least.value ≤ p.node.matchCount := by
  rw [tooFewSections, List.map_eq_nil_iff, List.filter_eq_nil_iff]
  refine forall₂_congr fun p _ => ?_
  simp

variable (accepts) in
/-- **A document has no findings exactly if each of its scopes is in order.** -/
theorem structureFindings_eq_nil_iff_inOrder (h : Regular d.sections) :
    structureFindings accepts (bindDocument accepts d elements) d elements = [] ↔
      InOrder accepts d elements (bindDocument accepts d elements) := by
  have hmissing := missing_misplaced_eq_nil_iff accepts elements h
  have hnodes : (∀ n ∈ allNodes (bindDocument accepts d elements).roots, n.isBound = true) ↔
      ∀ p ∈ (bindDocument accepts d elements).nodes, p.node.isBound = true :=
    List.forall_mem_map
  rw [hnodes] at hmissing
  have hfilter : (∀ p ∈ (bindDocument accepts d elements).nodes, p.node.isBound = true) →
      (bindDocument accepts d elements).boundNodes = (bindDocument accepts d elements).nodes :=
    List.filter_eq_self.2
  unfold structureFindings
  simp only [List.append_eq_nil_iff]
  rw [wrongFirsts_eq_nil_iff, unexpectedSections_eq_nil_iff h, tooFewSections_eq_nil_iff]
  constructor
  · rintro ⟨⟨⟨⟨⟨hfirstTop, hfirst⟩, hcoveredTop, hcovered⟩, hmiss⟩, hmis⟩, henough⟩
    have hbound := hmissing.1 ⟨hmiss, hmis⟩
    rw [hfilter hbound] at henough
    exact ⟨hbound, henough, hfirstTop, hfirst, hcoveredTop, hcovered⟩
  · rintro ⟨hbound, henough, hfirstTop, hfirst, hcoveredTop, hcovered⟩
    obtain ⟨hmiss, hmis⟩ := hmissing.2 hbound
    rw [hfilter hbound]
    exact ⟨⟨⟨⟨⟨hfirstTop, hfirst⟩, hcoveredTop, hcovered⟩, hmiss⟩, hmis⟩, henough⟩

end

end Outline

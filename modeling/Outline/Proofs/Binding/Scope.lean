import Outline.Proofs.Binding.Siblings
import Outline.Proofs.Document.Lines

/-!
# Scopes

The nodes of elements that are siblings, in one scope. They stand in the order of the elements,
those of one element together: one for each section that it took, or one without a section if it has
to occur (`Served`, `WellBound`). Below a node without a section the scope has no sections, and
**every node of a document has the nodes of its own scope below it** (`children_eq_matchSiblings`),
so that every scope of a document is well bound.

* `Node.sections`: the sections of the scope below a node;
* `Element.served_nodes`: the nodes of one element;
* `wellBound_matchSiblings`: the nodes of one scope;
* `forall_mem_allNodes`: induction over the nodes of all scopes.
-/

namespace Outline

/-! ## Nodes of one element -/

/-- **The nodes of an element in a scope**, where it is the one at the place `order`: one for each
section that it took, counted from 0, no more than it may take; one without a section, if it took
none and has to occur; none otherwise. -/
inductive Served (e : Element) (order : Nat) : List Node → Prop where
  | bound (nodes : List Node) (occurs : nodes ≠ [])
      (each : ∀ n ∈ nodes, n.isBound = true ∧ n.element = e ∧ n.order = order ∧
        n.matchCount = nodes.length)
      (counted : nodes.map Node.matchIndex = List.range nodes.length)
      (single : e.isRepeatable = false → nodes.length ≤ 1)
      (limited : ∀ bounds, e.count = some bounds → 0 < bounds.max.value →
        nodes.length ≤ bounds.max.value) : Served e order nodes
  | missing (n : Node) (unbound : n.isBound = false) (element : n.element = e)
      (place : n.order = order) (required : e.isRequired = true) : Served e order [n]
  | absent (optional : e.isRequired = false) : Served e order []

theorem Served.order_eq {e : Element} {order : Nat} {nodes : List Node} (h : Served e order nodes) :
    ∀ n ∈ nodes, n.element = e ∧ n.order = order := by
  cases h with
  | bound _ _ each => exact fun n hn => ⟨(each n hn).2.1, (each n hn).2.2.1⟩
  | missing n _ element place => exact List.forall_mem_singleton.2 ⟨element, place⟩
  | absent => exact fun _ h => absurd h List.not_mem_nil

/-- The nodes of an element that took sections, in their order. -/
theorem Element.nodes_of_taken (e : Element) (below : Section → List Node) (order : Nat)
    {taken : List Section} (h : taken ≠ []) :
    e.nodes below order taken = taken.zipIdx.map (e.node below order taken.length) := by
  unfold nodes
  rw [if_neg (by simpa using h)]

theorem Element.nodes_of_nil (e : Element) (below : Section → List Node) (order : Nat) :
    e.nodes below order [] = if e.isRequired then [e.unbound order] else [] := rfl

theorem Element.most_of_max {e : Element} {bounds : Bounds} (hcount : e.count = some bounds)
    (hmax : 0 < bounds.max.value) : e.most = some bounds.max.value := by
  unfold most
  rw [hcount]
  exact if_neg (Nat.ne_of_gt hmax)

theorem Element.served_nodes (accepts : Accepts) (e : Element) (below : Section → List Node)
    (order : Nat) (free : List Section) :
    Served e order (e.nodes below order (e.take accepts free)) := by
  by_cases h : e.take accepts free = []
  · rw [h, e.nodes_of_nil]
    split_ifs with hreq
    · rw [e.unbound_eq]
      exact .missing _ rfl rfl rfl hreq
    · exact .absent (by simpa using hreq)
  · rw [e.nodes_of_taken below order h]
    refine .bound _ (by simpa using h) ?_ ?_ ?_ ?_
    · intro n hn
      obtain ⟨x, -, rfl⟩ := List.mem_map.1 hn
      exact ⟨rfl, rfl, rfl, by simp [Element.node]⟩
    · rw [List.map_map, List.length_map, List.length_zipIdx, List.range_eq_range']
      exact List.zipIdx_map_snd 0 _
    · intro hrep
      simpa using e.length_take_le (e.most_of_not_isRepeatable hrep)
    · intro bounds hcount hmax
      simpa using e.length_take_le (e.most_of_max hcount hmax)

theorem Element.filterMap_boundTo_nodes (e : Element) (below : Section → List Node) (order : Nat)
    (taken : List Section) : (e.nodes below order taken).filterMap Node.boundTo? = taken := by
  by_cases h : taken = []
  · rw [h, e.nodes_of_nil]
    split_ifs
    · rw [e.unbound_eq]
      rfl
    · rfl
  · rw [e.nodes_of_taken below order h, List.filterMap_map]
    change taken.zipIdx.filterMap (fun x => some x.1) = taken
    rw [List.filterMap_eq_map']
    exact List.zipIdx_map_fst 0 taken

/-! ## Nodes of one scope -/

/-- **The nodes of a scope** below the section `above`, given its elements and its sections: they
stand in the order of the elements, at most one section is bound to each and they come in the order
of the document, and each element has its nodes together. -/
structure WellBound (above : Option Section) (elements : List Element) (sections : List Section)
    (nodes : List Node) : Prop where
  ordered : nodes.Pairwise fun n m => n.order ≤ m.order
  placed : ∀ n ∈ nodes, elements[n.order]? = some n.element
  direct : ∀ n ∈ nodes, ∀ s, n.boundTo? = some s → s ∈ sections
  increasing : (nodes.filterMap Node.boundTo?).Pairwise fun s t => s.startLine < t.startLine
  deeper : ∀ n ∈ nodes, ∀ s, n.boundTo? = some s → ∀ t, above = some t →
    t.heading.level < s.heading.level
  served : ∀ i e, elements[i]? = some e → ∃ before here later, nodes = before ++ here ++ later ∧
    (∀ n ∈ before, n.order < i) ∧ Served e i here ∧ ∀ n ∈ later, i < n.order

variable (accepts : Accepts)

theorem order_of_mem_matchSiblings (elements : List Element) :
    ∀ {order : Nat} {sections : List Section} {after : Nat},
      ∀ n ∈ matchSiblings accepts elements order sections after,
        ∃ i, n.order = order + i ∧ elements[i]? = some n.element := by
  induction elements with
  | nil => intro order sections after n hn; exact absurd hn List.not_mem_nil
  | cons e es ih =>
    intro order sections after n hn
    rw [matchSiblings_cons] at hn
    rcases List.mem_append.1 hn with hn | hn
    · obtain ⟨he, ho⟩ := (e.served_nodes accepts _ order _).order_eq n hn
      exact ⟨0, ho, congrArg some he.symm⟩
    · obtain ⟨i, ho, he⟩ := ih n hn
      exact ⟨i + 1, by omega, he⟩

theorem order_le_of_mem_matchSiblings {elements : List Element} {order : Nat}
    {sections : List Section} {after : Nat} {n : Node}
    (h : n ∈ matchSiblings accepts elements order sections after) : order ≤ n.order := by
  obtain ⟨i, ho, -⟩ := order_of_mem_matchSiblings accepts elements n h
  omega

theorem pairwise_order_matchSiblings (elements : List Element) :
    ∀ (order : Nat) (sections : List Section) (after : Nat),
      (matchSiblings accepts elements order sections after).Pairwise
        fun n m => n.order ≤ m.order := by
  induction elements with
  | nil => intro order sections after; exact List.Pairwise.nil
  | cons e es ih =>
    intro order sections after
    rw [matchSiblings_cons]
    have hhere := (e.served_nodes accepts (matchBelow accepts e) order
      (sectionsAfter after sections)).order_eq
    refine List.pairwise_append.2 ⟨?_, ih _ _ _, fun n hn m hm => ?_⟩
    · refine List.pairwise_of_forall_mem_list fun n hn m hm => ?_
      rw [(hhere n hn).2, (hhere m hm).2]
    · have := order_le_of_mem_matchSiblings accepts hm
      have := (hhere n hn).2
      omega

theorem filterMap_boundTo_matchSiblings (elements : List Element) :
    ∀ (order : Nat) {sections : List Section} (after : Nat),
      sections.Pairwise (fun s t => s.startLine < t.startLine) →
      ((matchSiblings accepts elements order sections after).filterMap Node.boundTo?).Sublist
        (sectionsAfter after sections) := by
  induction elements with
  | nil => intro order sections after _; exact List.nil_sublist _
  | cons e es ih =>
    intro order sections after hinc
    rw [matchSiblings_cons, List.filterMap_append, e.filterMap_boundTo_nodes]
    exact ((ih _ _ hinc).append_left _).trans
      (append_sectionsAfter_sublist hinc (e.take_sublist accepts _))

theorem served_matchSiblings (elements : List Element) :
    ∀ (order : Nat) (sections : List Section) (after i : Nat) (e : Element),
      elements[i]? = some e → ∃ before here later,
        matchSiblings accepts elements order sections after = before ++ here ++ later ∧
          (∀ n ∈ before, n.order < order + i) ∧ Served e (order + i) here ∧
            ∀ n ∈ later, order + i < n.order := by
  induction elements with
  | nil => intro order sections after i e h; simp at h
  | cons e es ih =>
    intro order sections after i e' h
    rw [matchSiblings_cons]
    have hhere := e.served_nodes accepts (matchBelow accepts e) order (sectionsAfter after sections)
    cases i with
    | zero =>
      obtain rfl : e = e' := Option.some.inj h
      exact ⟨[], _, _, rfl, fun _ hn => absurd hn List.not_mem_nil, hhere, fun n hn =>
        Nat.lt_of_succ_le (order_le_of_mem_matchSiblings accepts hn)⟩
    | succ i =>
      obtain ⟨before, here, later, heq, hbefore, hserved, hlater⟩ := ih (order + 1) sections
        (lastLine after (e.take accepts (sectionsAfter after sections))) i e' h
      rw [Nat.add_right_comm, Nat.add_assoc] at hbefore hserved hlater
      rw [heq]
      generalize e.nodes (matchBelow accepts e) order _ = first at hhere ⊢
      refine ⟨first ++ before, here, later, by simp only [List.append_assoc], fun n hn => ?_,
        hserved, hlater⟩
      rcases List.mem_append.1 hn with hn | hn
      · have := (hhere.order_eq n hn).2
        omega
      · exact hbefore n hn

theorem wellBound_matchSiblings (elements : List Element) {sections : List Section}
    (h : Regular sections) {above : Option Section}
    (habove : ∀ t, above = some t → ∀ s ∈ sections, t.heading.level < s.heading.level) :
    WellBound above elements sections (matchSiblings accepts elements 0 sections 0) := by
  have hbound := (filterMap_boundTo_matchSiblings accepts elements 0 0 h.siblings).trans
    (sectionsAfter_sublist 0 sections)
  have hdirect : ∀ n ∈ matchSiblings accepts elements 0 sections 0, ∀ s, n.boundTo? = some s →
      s ∈ sections := fun n hn s hs => hbound.subset (List.mem_filterMap.2 ⟨n, hn, hs⟩)
  refine ⟨pairwise_order_matchSiblings accepts elements 0 sections 0, fun n hn => ?_, hdirect,
    h.siblings.sublist hbound, fun n hn s hs t ht => habove t ht s (hdirect n hn s hs),
    fun i e he => ?_⟩
  · obtain ⟨i, ho, he⟩ := order_of_mem_matchSiblings accepts elements n hn
    rw [ho, Nat.zero_add]
    exact he
  · have hserved := served_matchSiblings accepts elements 0 sections 0 i e he
    rwa [Nat.zero_add] at hserved

/-! ## Nodes without a section -/

/-- Where there are no sections, every node is one without. -/
theorem unboundSiblings_eq_matchSiblings (elements : List Element) : ∀ (order after : Nat),
    unboundSiblings order elements = matchSiblings accepts elements order [] after := by
  induction elements with
  | nil => intro order after; rfl
  | cons e es ih =>
    intro order after
    have htake : e.take accepts (sectionsAfter after []) = [] :=
      Element.take_eq_nil_iff.2 fun s hs => absurd hs List.not_mem_nil
    rw [matchSiblings_cons, htake, e.nodes_of_nil, ← ih]
    rfl

/-- The required ones among elements, with their places. -/
def requiredAmong (elements : List Element) (order : Nat) : List (Element × Nat) :=
  (elements.zipIdx order).filter fun e => e.1.isRequired

/-- Nodes without sections are those of the required elements. -/
theorem map_unboundSiblings (elements : List Element) : ∀ order,
    (unboundSiblings order elements).map (fun n => (n.element, n.order)) =
      requiredAmong elements order := by
  induction elements with
  | nil => intro order; rfl
  | cons e es ih =>
    intro order
    rw [unboundSiblings, List.map_append, ih]
    unfold requiredAmong
    rw [List.zipIdx_cons, List.filter_cons]
    split_ifs
    · rw [e.unbound_eq]
      rfl
    · rfl

theorem isBound_unboundSiblings (elements : List Element) : ∀ order,
    ∀ n ∈ unboundSiblings order elements, n.isBound = false := by
  induction elements with
  | nil => intro order n hn; exact absurd hn List.not_mem_nil
  | cons e es ih =>
    intro order n hn
    rw [unboundSiblings] at hn
    rcases List.mem_append.1 hn with hn | hn
    · split_ifs at hn
      · rw [List.mem_singleton.1 hn, e.unbound_eq]
        rfl
      · exact absurd hn List.not_mem_nil
    · exact ih _ n hn

/-! ## Scopes of a document -/

/-- The sections of the scope below a node. -/
def Node.sections (n : Node) : List Section :=
  match n.boundTo? with
  | some s => s.children
  | none => []

theorem mem_allNodes {nodes : List Node} {n : Node} :
    n ∈ allNodes nodes ↔ ∃ m ∈ nodes, n = m ∨ n ∈ allNodes m.children := by
  induction nodes with
  | nil => simp
  | cons m ms ih =>
    rw [allNodes_cons, List.mem_cons, List.mem_append, ih]
    simp [or_assoc]

theorem Element.mem_nodes {e : Element} {below : Section → List Node} {order : Nat}
    {taken : List Section} {n : Node} (h : n ∈ e.nodes below order taken) :
    (n = e.unbound order ∧ taken = [] ∧ e.isRequired = true) ∨
      ∃ s ∈ taken, ∃ i, n = e.node below order taken.length (s, i) := by
  by_cases htaken : taken = []
  · rw [htaken, e.nodes_of_nil] at h
    split_ifs at h with hreq
    · exact Or.inl ⟨List.mem_singleton.1 h, htaken, hreq⟩
    · exact absurd h List.not_mem_nil
  · rw [e.nodes_of_taken below order htaken] at h
    obtain ⟨⟨s, i⟩, hs, rfl⟩ := List.mem_map.1 h
    exact Or.inr ⟨s, List.fst_mem_of_mem_zipIdx hs, i, rfl⟩

variable {accepts} in
/-- **Induction over the nodes of a scope and of those below it**: what holds of elements and
sections is handed down to later siblings and to the scopes below, and gives what holds of nodes. -/
theorem forall_mem_allNodes {Q : List Element → List Section → Prop} {P : Node → Prop}
    (later : ∀ {e es sections}, Q (e :: es) sections → Q es sections)
    (below : ∀ {e es sections}, Q (e :: es) sections →
      Q e.children [] ∧ ∀ s ∈ sections, Q e.children s.children)
    (unbound : ∀ {e es sections} order, Q (e :: es) sections → e.isRequired = true →
      P (e.unbound order))
    (bound : ∀ {e es sections} order count, Q (e :: es) sections → ∀ s ∈ sections, ∀ i,
      P (e.node (matchBelow accepts e) order count (s, i))) (elements : List Element) :
    ∀ {order : Nat} {sections : List Section} {after : Nat}, Q elements sections →
      ∀ n ∈ allNodes (matchSiblings accepts elements order sections after), P n := by
  induction elements using elements_induction with
  | nil => intro order sections after _ n hn; exact absurd hn List.not_mem_nil
  | cons e es ihe ih =>
    intro order sections after h n hn
    rw [matchSiblings_cons, allNodes_append, List.mem_append, mem_allNodes] at hn
    rcases hn with ⟨m, hm, hn⟩ | hn
    · rcases Element.mem_nodes hm with ⟨rfl, -, hreq⟩ | ⟨s, hs, i, rfl⟩
      · rcases hn with rfl | hn
        · exact unbound order h hreq
        · rw [e.unbound_eq, unboundSiblings_eq_matchSiblings accepts e.children 0 0] at hn
          exact ihe (below h).1 n hn
      · have hs : s ∈ sections := (sectionsAfter_sublist after sections).subset
          ((e.take_sublist accepts _).subset hs)
        rcases hn with rfl | hn
        · exact bound order _ h s hs i
        · exact ihe ((below h).2 s hs) n hn
    · exact ih (later h) n hn

/-- **Every node has the nodes of its own scope below it.** -/
theorem children_eq_matchSiblings (elements : List Element) {order : Nat} {sections : List Section}
    {after : Nat} (h : Regular sections) :
    ∀ n ∈ allNodes (matchSiblings accepts elements order sections after),
      Regular n.sections ∧
        n.children = matchSiblings accepts n.element.children 0 n.sections 0 := by
  have hnil : Regular [] := h.sublist (List.nil_sublist _)
  refine forall_mem_allNodes (Q := fun _ sections => Regular sections) (fun h => h)
    (fun h => ⟨hnil, fun s hs => h.children hs⟩) ?_ ?_ elements h
  · intro e _ _ order _ _
    rw [e.unbound_eq]
    exact ⟨hnil, unboundSiblings_eq_matchSiblings accepts e.children 0 0⟩
  · intro _ _ _ _ _ h s hs _
    exact ⟨h.children hs, rfl⟩

/-- Only the nodes of required elements are without a section. -/
theorem isRequired_of_unbound (elements : List Element) {order : Nat} {sections : List Section}
    {after : Nat} :
    ∀ n ∈ allNodes (matchSiblings accepts elements order sections after),
      n.isBound = false → n.element.isRequired = true := by
  refine forall_mem_allNodes (Q := fun _ _ => True) (fun h => h)
    (fun _ => ⟨trivial, fun _ _ => trivial⟩) ?_ ?_ elements trivial
  · intro e _ _ order _ hreq _
    rw [e.unbound_eq]
    exact hreq
  · intro _ _ _ _ _ _ _ _ _ hunbound
    cases hunbound

/-- The nodes of a scope that have no section stand at increasing places. -/
theorem pairwise_order_unbound (elements : List Element) :
    ∀ (order : Nat) (sections : List Section) (after : Nat),
      ((matchSiblings accepts elements order sections after).filter fun n => !n.isBound).Pairwise
        fun n m => n.order < m.order := by
  induction elements with
  | nil => intro order sections after; exact List.Pairwise.nil
  | cons e es ih =>
    intro order sections after
    rw [matchSiblings_cons, List.filter_append]
    have hhere := e.served_nodes accepts (matchBelow accepts e) order (sectionsAfter after sections)
    generalize e.nodes (matchBelow accepts e) order _ = here at hhere ⊢
    refine List.pairwise_append.2 ⟨?_, ih _ _ _, fun n hn m hm => ?_⟩
    · cases hhere with
      | bound _ _ each =>
        rw [List.filter_eq_nil_iff.2 fun n hn => by simp [(each n hn).1]]
        exact List.Pairwise.nil
      | missing n => exact (List.pairwise_singleton _ n).sublist List.filter_sublist
      | absent => exact List.Pairwise.nil
    · have hn := (hhere.order_eq n (List.mem_filter.1 hn).1).2
      have hm := order_le_of_mem_matchSiblings accepts (List.mem_filter.1 hm).1
      omega

/-- **The order of a walk**: each node of the trees is listed once, in the lexicographic order of
the paths to the nodes, and with its ancestors. -/
structure DepthFirst (roots : List Node) (listed : List Placed) : Prop where
  paths : ∃ paths : List (List Nat), paths.Pairwise (· < ·) ∧
    (∀ path, path ∈ paths ↔ (nodeAt? [] roots path).isSome) ∧
      paths.map (nodeAt? [] roots) = listed.map some
  linked : ∀ p ∈ listed, (p.ancestors = [] ∧ p.node ∈ roots) ∨
    ∃ q ∈ listed, p.ancestors = q.node :: q.ancestors ∧ p.node ∈ q.node.children

theorem depthFirst_nodes (b : Binding) : DepthFirst b.roots b.nodes where
  paths := ⟨nodePaths b.roots, pairwise_nodePaths b.roots, fun _ => mem_nodePaths b.roots,
    walkNodes_eq_paths b.roots []⟩
  linked _ hp := linked_of_mem_walkNodes hp

theorem mem_allSections_of_mem_nodes {d : Document} {elements : List Element}
    (h : Regular d.sections) {p : Placed} (hp : p ∈ (bindDocument accepts d elements).nodes)
    {s : Section} (hs : p.node.boundTo? = some s) : s ∈ d.allSections := by
  have hmem : s ∈ boundSections (bindDocument accepts d elements).roots :=
    mem_boundSections.2 ⟨p.node, node_mem_allNodes hp, hs⟩
  rw [bindDocument_roots accepts elements h] at hmem
  exact (walkAll_sublist (sectionsAfter_sublist 0 _)).subset
    (mem_walkAll_of_mem_boundSections accepts h hmem)

theorem wellBound_children {d : Document} {elements : List Element} (h : Regular d.sections)
    {p : Placed} (hp : p ∈ (bindDocument accepts d elements).nodes) :
    WellBound p.node.boundTo? p.node.element.children p.node.sections p.node.children := by
  have hnode := node_mem_allNodes hp
  rw [bindDocument_roots accepts elements h] at hnode
  obtain ⟨hreg, hchildren⟩ := children_eq_matchSiblings accepts elements h p.node hnode
  rw [hchildren]
  refine wellBound_matchSiblings accepts _ hreg fun t ht s hs => ?_
  rw [Node.sections, ht] at hs
  exact h.deeper t (mem_allSections_of_mem_nodes accepts h hp ht) s hs

/-- **Well-bound nodes of a document**: every scope is well bound, at the top and below each node; a
node without a section has those of the required elements below it, all without one; and the walk
lists every node once. -/
structure WellBoundTree (d : Document) (elements : List Element) (b : Binding) : Prop where
  top : WellBound none elements d.sections b.roots
  below : ∀ p ∈ b.nodes,
    WellBound p.node.boundTo? p.node.element.children p.node.sections p.node.children
  missing : ∀ p ∈ b.nodes, p.node.isBound = false →
    p.node.children.map (fun n => (n.element, n.order)) =
        requiredAmong p.node.element.children 0 ∧ ∀ n ∈ p.node.children, n.isBound = false
  walked : DepthFirst b.roots b.nodes

/-- **The nodes of a document that was read are well bound.** -/
theorem wellBoundTree_bindDocument {text path : String} {d : Document}
    (h : parseDocument text path = .ok d) (elements : List Element) :
    WellBoundTree d elements (bindDocument accepts d elements) := by
  have hreg := regular_of_parseDocument h
  refine ⟨?_, fun p hp => wellBound_children accepts hreg hp, fun p hp hunbound => ?_,
    depthFirst_nodes _⟩
  · rw [bindDocument_roots accepts elements hreg]
    exact wellBound_matchSiblings accepts elements hreg fun _ ht => nomatch ht
  · have hnode := node_mem_allNodes hp
    rw [bindDocument_roots accepts elements hreg] at hnode
    have hchildren := (children_eq_matchSiblings accepts elements hreg p.node hnode).2
    have hnone : p.node.sections = [] := by rw [Node.sections, Node.boundTo_eq_none hunbound]
    rw [hnone, ← unboundSiblings_eq_matchSiblings] at hchildren
    rw [hchildren]
    exact ⟨map_unboundSiblings _ 0, isBound_unboundSiblings _ 0⟩

/-- Elements for the sample: `B` any number of times, then `C`, which the sample has before the last
`B`, and `D` with a heading below it. -/
def sampleElements : List Element :=
  [{ heading := .literal "# A"
     children :=
      [{ heading := .literal "## B", count := some {} },
        { heading := .literal "## C" },
        { heading := .literal "## D", children := [{ heading := .literal "### E" }] }] }]

theorem wellBoundTree_sample : parseDocument sampleText "" = .ok sampleDocument ∧
    WellBoundTree sampleDocument sampleElements
      (bindDocument (HeadingSpec.accepts "") sampleDocument sampleElements) :=
  ⟨parseDocument_sample, wellBoundTree_bindDocument _ parseDocument_sample sampleElements⟩

end Outline

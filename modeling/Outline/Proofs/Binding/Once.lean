import Outline.Proofs.Binding.Scope

/-!
# Sections bound once

In a document that was read, no section is bound to two nodes (`boundOnce`), and the sections that a
bound section lies in are bound too (`bound_of_ancestor`). Hence the record of the binding, which
holds only the lines where bound sections begin, tells which sections are bound (`isBound_iff`), and
the node that is found by the line of a section is the one that the section is bound to
(`nodeOf?_eq_some_iff`).

* `Free`, `BoundOnce`: sections bound to no node, and to exactly one.
-/

namespace Outline

/-- No node is bound to the section. -/
def Free (b : Binding) (s : Section) : Prop := ∀ q ∈ b.nodes, q.node.boundTo? ≠ some s

/-- Exactly one node is bound to the section. -/
def BoundOnce (b : Binding) (s : Section) : Prop :=
  ∃! i : Nat, ∃ q : Placed, b.nodes[i]? = some q ∧ q.node.boundTo? = some s

theorem not_free_iff {b : Binding} {s : Section} :
    ¬ Free b s ↔ ∃ q ∈ b.nodes, q.node.boundTo? = some s := by
  simp [Free]

theorem BoundOnce.not_free {b : Binding} {s : Section} (h : BoundOnce b s) : ¬ Free b s := by
  obtain ⟨i, ⟨q, hq, hs⟩, -⟩ := h
  exact fun hfree => hfree q (List.mem_of_getElem? hq) hs

/-- Places in a list with the same value under a function whose values are distinct. -/
theorem index_unique {α β : Type} {f : α → Option β} {l : List α} (h : (l.filterMap f).Nodup)
    {i j : Nat} {a a' : α} {c : β} (hi : l[i]? = some a) (hj : l[j]? = some a')
    (ha : f a = some c) (ha' : f a' = some c) : i = j := by
  have hpair := List.pairwise_filterMap.1 h
  rw [List.pairwise_iff_getElem] at hpair
  obtain ⟨hil, rfl⟩ := List.getElem?_eq_some_iff.1 hi
  obtain ⟨hjl, rfl⟩ := List.getElem?_eq_some_iff.1 hj
  rcases Nat.lt_trichotomy i j with hlt | heq | hlt
  · exact absurd rfl (hpair i j hil hjl hlt c ha c ha')
  · exact heq
  · exact absurd rfl (hpair j i hjl hil hlt c ha' c ha)

section

variable (accepts : Accepts) {d : Document} (elements : List Element)

theorem boundSections_roots_sublist (h : Regular d.sections) :
    (boundSections (bindDocument accepts d elements).roots).Sublist d.allSections := by
  rw [bindDocument_roots accepts elements h]
  exact (boundSections_matchSiblings_sublist accepts elements 0 0 h).trans
    (walkAll_sublist (sectionsAfter_sublist 0 _))

theorem filterMap_boundTo_nodes (b : Binding) :
    b.nodes.filterMap (fun q => q.node.boundTo?) = boundSections b.roots := by
  rw [boundSections, allNodes, List.filterMap_map]
  rfl

theorem nodup_boundSections (h : Regular d.sections) :
    (boundSections (bindDocument accepts d elements).roots).Nodup :=
  h.nodup.sublist (boundSections_roots_sublist accepts elements h)

variable {accepts elements}

theorem mem_boundSections_iff {s : Section} :
    s ∈ boundSections (bindDocument accepts d elements).roots ↔
      ∃ q ∈ (bindDocument accepts d elements).nodes, q.node.boundTo? = some s := by
  rw [← filterMap_boundTo_nodes]
  exact List.mem_filterMap

/-- **No section is bound to two nodes.** -/
theorem boundOnce (h : Regular d.sections) {s : Section}
    (hs : ¬ Free (bindDocument accepts d elements) s) :
    BoundOnce (bindDocument accepts d elements) s := by
  obtain ⟨q, hq, hqs⟩ := not_free_iff.1 hs
  obtain ⟨i, hi⟩ := List.mem_iff_getElem?.1 hq
  have hnodup := nodup_boundSections accepts elements h
  rw [← filterMap_boundTo_nodes] at hnodup
  exact ⟨i, ⟨q, hi, hqs⟩, fun j ⟨q', hj, hq's⟩ => index_unique hnodup hj hi hq's hqs⟩

/-- Nodes of a document with the same section are the same. -/
theorem eq_of_boundTo (h : Regular d.sections) {p q : Placed}
    (hp : p ∈ (bindDocument accepts d elements).nodes)
    (hq : q ∈ (bindDocument accepts d elements).nodes) {s : Section}
    (hps : p.node.boundTo? = some s) (hqs : q.node.boundTo? = some s) : p = q := by
  obtain ⟨i, hi⟩ := List.mem_iff_getElem?.1 hp
  obtain ⟨j, hj⟩ := List.mem_iff_getElem?.1 hq
  have hnodup := nodup_boundSections accepts elements h
  rw [← filterMap_boundTo_nodes] at hnodup
  obtain rfl := index_unique hnodup hi hj hps hqs
  exact Option.some.inj (hi.symm.trans hj)

/-- **The record tells which sections are bound.** -/
theorem isBound_iff (h : Regular d.sections) {s : Section} (hs : s ∈ d.allSections) :
    (bindDocument accepts d elements).isBound s = true ↔
      ¬ Free (bindDocument accepts d elements) s := by
  rw [not_free_iff, ← mem_boundSections_iff, Binding.isBound, List.contains_iff_mem,
    bindDocument_bound accepts elements h, List.mem_reverse, List.mem_map]
  constructor
  · rintro ⟨t, ht, he⟩
    exact h.eq_of_startLine ((boundSections_roots_sublist accepts elements h).subset ht) hs he ▸ ht
  · exact fun hs => ⟨s, hs, rfl⟩

theorem isBound_eq_false_iff (h : Regular d.sections) {s : Section} (hs : s ∈ d.allSections) :
    (bindDocument accepts d elements).isBound s = false ↔
      Free (bindDocument accepts d elements) s := by
  rw [← Bool.not_eq_true, isBound_iff h hs, not_not]

/-- **The line of a section finds the node that it is bound to.** -/
theorem nodeOf?_eq_some_iff (h : Regular d.sections) {s : Section} (hs : s ∈ d.allSections)
    {n : Node} : (bindDocument accepts d elements).nodeOf? s = some n ↔
      ∃ q ∈ (bindDocument accepts d elements).nodes, q.node = n ∧ n.boundTo? = some s := by
  have hline : ∀ q ∈ (bindDocument accepts d elements).nodes,
      (q.node.startLine? == some s.startLine) = true ↔ q.node.boundTo? = some s := by
    intro q hq
    rw [beq_iff_eq, Node.startLine?, Option.map_eq_some_iff]
    constructor
    · rintro ⟨t, ht, he⟩
      rw [ht, h.eq_of_startLine (mem_allSections_of_mem_nodes accepts h hq ht) hs he]
    · exact fun hs => ⟨s, hs, rfl⟩
  rw [Binding.nodeOf?, List.find?_map]
  constructor
  · intro hfind
    obtain ⟨q, hq, rfl⟩ := Option.map_eq_some_iff.1 hfind
    have hmem := List.mem_of_find?_eq_some hq
    have hfound := List.find?_some hq
    exact ⟨q, hmem, rfl, (hline q hmem).1 hfound⟩
  · rintro ⟨q, hq, rfl, hqs⟩
    cases hfind : (bindDocument accepts d elements).nodes.find?
        ((fun n => n.startLine? == some s.startLine) ∘ Placed.node) with
    | none => exact absurd ((hline q hq).2 hqs) (List.find?_eq_none.1 hfind q hq)
    | some q' =>
      have hq' := List.mem_of_find?_eq_some hfind
      have hfound := List.find?_some hfind
      rw [eq_of_boundTo h hq hq' hqs ((hline q' hq').1 hfound)]
      rfl

end

/-! ## Where bound sections lie -/

theorem mem_walkNodes {ancestors nodes : List Node} {p : Placed} :
    p ∈ walkNodes ancestors nodes ↔
      ∃ m ∈ nodes, p = ⟨m, ancestors⟩ ∨ p ∈ walkNodes (m :: ancestors) m.children := by
  induction nodes with
  | nil => simp
  | cons m ms ih =>
    rw [walkNodes_cons, List.mem_cons, List.mem_append, ih]
    simp [or_assoc]

/-- **A bound section lies in the sections that the ancestors of its node are bound to.** -/
theorem placed_of_bound (accepts : Accepts) (elements : List Element) :
    ∀ {order : Nat} {sections : List Section} {after : Nat} {ancestors : List Node}
      (around : List Section), ancestors.map Node.boundTo? = around.map some →
      ∀ p ∈ walkNodes ancestors (matchSiblings accepts elements order sections after),
        ∀ s, p.node.boundTo? = some s →
          ∃ outer, p.ancestors.map Node.boundTo? = outer.map some ∧
            ⟨s, outer⟩ ∈ walkAllUnder around sections := by
  induction elements using elements_induction with
  | nil => intro order sections after ancestors around _ p hp; exact absurd hp List.not_mem_nil
  | cons e es ihe ih =>
    intro order sections after ancestors around hanc p hp s hs
    rw [matchSiblings_cons, walkNodes_append, List.mem_append, mem_walkNodes] at hp
    rcases hp with ⟨m, hm, hp⟩ | hp
    · rcases Element.mem_nodes hm with ⟨rfl, -, -⟩ | ⟨t, ht, i, rfl⟩
      · -- no section is bound below a node without one
        have hbound : s ∈ boundSections [e.unbound order] := by
          refine mem_boundSections.2 ⟨p.node, ?_, hs⟩
          rcases hp with rfl | hp
          · exact mem_allNodes.2 ⟨_, List.mem_singleton_self _, Or.inl rfl⟩
          · exact mem_allNodes.2 ⟨_, List.mem_singleton_self _, Or.inr (node_mem_allNodes hp)⟩
        rw [boundSections_unbound] at hbound
        exact absurd hbound List.not_mem_nil
      · have ht : t ∈ sections := (sectionsAfter_sublist after sections).subset
          ((e.take_sublist accepts _).subset ht)
        rcases hp with rfl | hp
        · obtain rfl : t = s := Option.some.inj hs
          exact ⟨around, hanc, mem_walkAllUnder_of_mem ht around⟩
        · obtain ⟨outer, houter, hmem⟩ := ihe (t :: around)
            (by rw [List.map_cons, List.map_cons, hanc]; rfl) p hp s hs
          exact ⟨outer, houter, (walkAllUnder_children_sublist ht around).subset hmem⟩
    · exact ih around hanc p hp s hs

section

variable {accepts : Accepts} {d : Document} {elements : List Element}

theorem placed_of_mem_nodes (h : Regular d.sections) {q : Placed}
    (hq : q ∈ (bindDocument accepts d elements).nodes) {s : Section}
    (hs : q.node.boundTo? = some s) :
    ∃ outer, q.ancestors.map Node.boundTo? = outer.map some ∧ ⟨s, outer⟩ ∈ d.placedSections := by
  rw [Binding.nodes, bindDocument_roots accepts elements h] at hq
  exact placed_of_bound accepts elements [] rfl q hq s hs

/-- The ancestors of a node with a section have one too. -/
theorem isBound_of_ancestor (h : Regular d.sections) {q : Placed}
    (hq : q ∈ (bindDocument accepts d elements).nodes) (hbound : q.node.isBound = true) :
    ∀ m ∈ q.ancestors, m.isBound = true := by
  obtain ⟨s, hs⟩ := Option.isSome_iff_exists.1 hbound
  obtain ⟨outer, houter, -⟩ := placed_of_mem_nodes h hq hs
  intro m hm
  have hmem : m.boundTo? ∈ outer.map some := houter ▸ List.mem_map_of_mem hm
  obtain ⟨t, -, ht⟩ := List.mem_map.1 hmem
  exact Option.isSome_iff_exists.2 ⟨t, ht.symm⟩

/-- **The sections that a bound section lies in are bound too.** -/
theorem bound_of_ancestor (h : Regular d.sections) {p : PlacedSection} (hp : p ∈ d.placedSections)
    (hbound : ¬ Free (bindDocument accepts d elements) p.self) {s : Section}
    (hs : s ∈ p.ancestors) : ¬ Free (bindDocument accepts d elements) s := by
  obtain ⟨q, hq, hqs⟩ := not_free_iff.1 hbound
  obtain ⟨outer, houter, hmem⟩ := placed_of_mem_nodes h hq hqs
  have hplaced : p.ancestors = outer := congrArg PlacedSection.ancestors (h.placed_eq hp hmem rfl)
  have hsome : some s ∈ q.ancestors.map Node.boundTo? := by
    rw [houter, ← hplaced]
    exact List.mem_map_of_mem hs
  obtain ⟨m, hm, hms⟩ := List.mem_map.1 hsome
  rw [not_free_iff, ← mem_boundSections_iff]
  refine mem_boundSections.2 ⟨m, ?_, hms⟩
  exact (mem_allNodes_of_ancestor hq m hm).resolve_right List.not_mem_nil

end

end Outline

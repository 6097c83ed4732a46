import Mathlib.Data.List.Find
import Outline.Proofs.Binding.Once
import Outline.Rule.Structure

/-!
# Nodes without a section

What is said about the nodes of a scope that have no section, one after the other: a node is
misplaced at the first section of the scope that its heading accepts, that no node has and that is
not claimed by a node before it, and missing if there is none. The search for misplaced sections
looks only at sections before the last one bound by the siblings of a node, but **it finds the same
ones** (`found_searchMisplaced`): where an element took nothing, its heading accepts nothing behind
the sections that were bound before (`Settled`).

* `firstFree?`, `Verdict`, `verdicts`: what is said;
* `Settled`: nodes as they are left by the binding;
* `Search.At`: where the search has come to;
* `Scope.misplaced`: what it finds in a scope.
-/

namespace Outline

/-! ## Verdicts -/

section

variable (accepts : Accepts) (b : Binding) (sections : List Section)

open scoped Classical in
/-- The first section that the heading of a node accepts, that no node has and that is not
claimed. -/
noncomputable def firstFree? (claimed : List Section) (n : Node) : Option Section :=
  sections.find? fun s =>
    accepts n.element.heading s.heading = true ∧ Free b s ∧ s ∉ claimed

/-- What is said about a node without a section: it is missing, or misplaced at a section that it
claims, which should come after the heading with the text `after`. -/
structure Verdict where
  node : Node
  found? : Option Section
  after : String

/-- What is said about the nodes of a scope without a section, one after the other. -/
noncomputable def verdicts : (claimed : List Section) → (after : String) → List Node → List Verdict
  | _, _, [] => []
  | claimed, after, n :: ns =>
    match n.boundTo? with
    | some s => verdicts claimed s.heading.text ns
    | none =>
      let found? := firstFree? accepts b sections claimed n
      ⟨n, found?, after⟩ :: verdicts (claimed ++ found?.toList) after ns

variable {accepts b sections}

theorem firstFree?_eq_none_iff {claimed : List Section} {n : Node} :
    firstFree? accepts b sections claimed n = none ↔ ∀ s ∈ sections,
      accepts n.element.heading s.heading = true → Free b s → s ∈ claimed := by
  simp [firstFree?]

theorem firstFree?_spec {claimed : List Section} {n : Node} {s : Section}
    (h : firstFree? accepts b sections claimed n = some s) :
    s ∈ sections ∧ accepts n.element.heading s.heading = true ∧ Free b s ∧ s ∉ claimed := by
  have hs := List.find?_some h
  exact ⟨List.mem_of_find?_eq_some h, by simpa using hs⟩

@[simp] theorem verdicts_nil (claimed : List Section) (after : String) :
    verdicts accepts b sections claimed after [] = [] := rfl

theorem verdicts_cons_bound {n : Node} {s : Section} (h : n.boundTo? = some s)
    (claimed : List Section) (after : String) (ns : List Node) :
    verdicts accepts b sections claimed after (n :: ns) =
      verdicts accepts b sections claimed s.heading.text ns := by
  rw [verdicts, h]

theorem verdicts_cons_unbound {n : Node} (h : n.boundTo? = none) (claimed : List Section)
    (after : String) (ns : List Node) :
    verdicts accepts b sections claimed after (n :: ns) =
      ⟨n, firstFree? accepts b sections claimed n, after⟩ ::
        verdicts accepts b sections
          (claimed ++ (firstFree? accepts b sections claimed n).toList) after ns := by
  rw [verdicts, h]

/-- **There is one verdict for each node without a section.** -/
theorem map_node_verdicts (nodes : List Node) : ∀ (claimed : List Section) (after : String),
    (verdicts accepts b sections claimed after nodes).map Verdict.node =
      nodes.filter fun n => !n.isBound := by
  induction nodes with
  | nil => intro claimed after; rfl
  | cons n ns ih =>
    intro claimed after
    cases hn : n.boundTo? with
    | some s =>
      rw [verdicts_cons_bound hn, ih, List.filter_cons_of_neg (by simp [Node.isBound, hn])]
    | none =>
      rw [verdicts_cons_unbound hn, List.map_cons, ih,
        List.filter_cons_of_pos (by simp [Node.isBound, hn])]

/-- A node claims the first free section that the nodes before it have not claimed. -/
theorem found_of_verdicts (nodes : List Node) :
    ∀ {claimed : List Section} {after : String} {before later : List Verdict} {v : Verdict},
      verdicts accepts b sections claimed after nodes = before ++ v :: later →
        v.found? = firstFree? accepts b sections
          (claimed ++ before.filterMap Verdict.found?) v.node := by
  induction nodes with
  | nil =>
    intro claimed after before later v h
    exact absurd h.symm (List.append_ne_nil_of_right_ne_nil _ (List.cons_ne_nil _ _))
  | cons n ns ih =>
    intro claimed after before later v h
    cases hn : n.boundTo? with
    | some s =>
      rw [verdicts_cons_bound hn] at h
      exact ih h
    | none =>
      rw [verdicts_cons_unbound hn] at h
      cases before with
      | nil =>
        obtain ⟨rfl, -⟩ := List.cons.inj h
        rw [List.filterMap_nil, List.append_nil]
      | cons u before =>
        rw [List.cons_append] at h
        obtain ⟨rfl, hlater⟩ := List.cons.inj h
        rw [ih hlater, List.filterMap_cons]
        cases firstFree? accepts b sections claimed n <;> simp

/-- A verdict that claims a section as the search notes it, in the scope below a line. -/
def Verdict.misplaced? (line : Nat) (v : Verdict) : Option Misplaced :=
  v.found?.map fun s => ⟨line, v.node.order, v.node.element, s, v.after⟩

end

/-! ## What the binding leaves -/

/-- **Nodes of a scope as the binding leaves them** behind a line: the sections bound to them begin
at increasing lines, and where a node has none, its heading accepts no section behind the last one
bound before it. -/
inductive Settled (accepts : Accepts) (sections : List Section) : (after : Nat) → List Node → Prop
  | nil (after : Nat) : Settled accepts sections after []
  | bound {after : Nat} {n : Node} {s : Section} {ns : List Node} (hn : n.boundTo? = some s)
      (mem : s ∈ sections) (later : after < s.startLine)
      (rest : Settled accepts sections s.startLine ns) : Settled accepts sections after (n :: ns)
  | unbound {after : Nat} {n : Node} {ns : List Node} (hn : n.boundTo? = none)
      (rejects : ∀ s ∈ sections, after < s.startLine →
        accepts n.element.heading s.heading = false)
      (rest : Settled accepts sections after ns) : Settled accepts sections after (n :: ns)

section

variable (accepts : Accepts)

theorem settled_map_node {e : Element} {below : Section → List Node} {order count : Nat}
    {sections : List Section} {rest : List Node} (taken : List Section) :
    ∀ {after : Nat} (index : Nat), taken.Pairwise (fun s t => s.startLine < t.startLine) →
      (∀ s ∈ taken, s ∈ sections ∧ after < s.startLine) →
      Settled accepts sections (lastLine after taken) rest →
      Settled accepts sections after
        ((taken.zipIdx index).map (e.node below order count) ++ rest) := by
  induction taken with
  | nil => intro after index _ _ hrest; exact hrest
  | cons s taken ih =>
    intro after index hinc hmem hrest
    obtain ⟨hs, hinc⟩ := List.pairwise_cons.1 hinc
    obtain ⟨⟨hsec, hafter⟩, hmem⟩ := List.forall_mem_cons.1 hmem
    rw [lastLine_cons] at hrest
    exact .bound rfl hsec hafter
      (ih (index + 1) hinc (fun t ht => ⟨(hmem t ht).1, hs t ht⟩) hrest)

/-- **The binding leaves the nodes of a scope settled.** -/
theorem settled_matchSiblings (elements : List Element) :
    ∀ (order : Nat) {sections : List Section} (after : Nat),
      sections.Pairwise (fun s t => s.startLine < t.startLine) →
      Settled accepts sections after (matchSiblings accepts elements order sections after) := by
  induction elements with
  | nil => intro order sections after _; exact .nil after
  | cons e es ih =>
    intro order sections after hinc
    rw [matchSiblings_cons]
    have hrest := ih (order + 1)
      (lastLine after (e.take accepts (sectionsAfter after sections))) hinc
    have hsub := e.take_sublist accepts (sectionsAfter after sections)
    by_cases htaken : e.take accepts (sectionsAfter after sections) = []
    · have hrejects := Element.take_eq_nil_iff.1 htaken
      rw [htaken, lastLine_nil] at hrest
      rw [htaken, e.nodes_of_nil, lastLine_nil]
      split_ifs
      · refine .unbound (by rw [e.unbound_eq]) (fun s hs hafter => ?_) hrest
        rw [e.unbound_eq]
        exact hrejects s (mem_sectionsAfter.2 ⟨hs, hafter⟩)
      · exact hrest
    · rw [e.nodes_of_taken _ order htaken]
      exact settled_map_node accepts _ 0 (hinc.sublist (hsub.trans (sectionsAfter_sublist _ _)))
        (fun s hs => mem_sectionsAfter.1 (hsub.subset hs)) hrest

end

/-! ## The search in one scope -/

/-- **Where a search has come to** in a scope: what it found here is what was claimed, and the last
section bound so far, if there is one, is not free. -/
structure Search.At (b : Binding) (sections : List Section) (st : Search)
    (claimed : List Section) : Prop where
  claimed_iff : ∀ s ∈ sections,
    (st.found.any fun m => m.found.startLine == s.startLine) = true ↔ s ∈ claimed
  last : ∀ s ∈ sections, s.startLine = st.lastLine → ¬ Free b s

/-- What the search finds in a scope. -/
noncomputable def Scope.misplaced (accepts : Accepts) (b : Binding) (scope : Scope) :
    List Misplaced :=
  (verdicts accepts b scope.sections [] "" scope.siblings).filterMap
    (Verdict.misplaced? scope.line)

/-- **A scope as the binding leaves it**: its sections are in order, the record tells which of them
have a node, and its nodes are settled. -/
structure Scope.Ready (accepts : Accepts) (b : Binding) (scope : Scope) : Prop where
  increasing : scope.sections.Pairwise fun s t => s.startLine < t.startLine
  positive : ∀ s ∈ scope.sections, 0 < s.startLine
  recorded : ∀ s ∈ scope.sections, b.isBound s = false ↔ Free b s
  settled : Settled accepts scope.sections 0 scope.siblings
  bound : ∀ n ∈ scope.siblings, ∀ s, n.boundTo? = some s → ¬ Free b s

namespace Scope

variable {accepts : Accepts} {b : Binding} {scope : Scope}

theorem Ready.eq_of_startLine (h : scope.Ready accepts b) {s t : Section}
    (hs : s ∈ scope.sections) (ht : t ∈ scope.sections) (he : s.startLine = t.startLine) : s = t :=
  List.inj_on_of_nodup_map (List.pairwise_map.2 (h.increasing.imp Nat.ne_of_lt)) hs ht he

/-- **The search claims the first free section**: none that a node without a section fits is hidden
from it. -/
theorem Ready.find?_claimable (h : scope.Ready accepts b) {st : Search} {claimed : List Section}
    (hat : st.At b scope.sections claimed) {n : Node}
    (hrejects : ∀ s ∈ scope.sections, st.lastLine < s.startLine →
      accepts n.element.heading s.heading = false) :
    ((st.claimable b scope.sections).find? fun s => accepts n.element.heading s.heading) =
      firstFree? accepts b scope.sections claimed n := by
  unfold Search.claimable firstFree?
  rw [List.find?_filter]
  refine List.find?_congr fun s hs => ?_
  rw [Bool.eq_iff_iff]
  simp only [Bool.and_eq_true, Bool.not_eq_true', decide_eq_true_iff, h.recorded s hs,
    ← hat.claimed_iff s hs, Bool.not_eq_true]
  constructor
  · rintro ⟨⟨⟨hfree, hclaimed⟩, -⟩, haccepts⟩
    exact ⟨haccepts, hfree, hclaimed⟩
  · rintro ⟨haccepts, hfree, hclaimed⟩
    refine ⟨⟨⟨hfree, hclaimed⟩, ?_⟩, haccepts⟩
    -- it is not behind the last bound section, and not that section
    have hnot : ¬ st.lastLine < s.startLine := fun hlt =>
      absurd haccepts (Bool.eq_false_iff.1 (hrejects s hs hlt))
    have hne : s.startLine ≠ st.lastLine := fun he => hat.last s hs he hfree
    omega

/-- Going on by a node with a section. -/
theorem Ready.at_bound (h : scope.Ready accepts b) {st : Search} {claimed : List Section}
    (hat : st.At b scope.sections claimed) {s : Section} (hs : s ∈ scope.sections)
    (hbound : ¬ Free b s) :
    Search.At b scope.sections
      { st with lastLine := s.startLine, lastText := s.heading.text } claimed where
  claimed_iff := hat.claimed_iff
  last _ ht he := h.eq_of_startLine ht hs he ▸ hbound

/-- Going on by a node that claims a section, or finds none. -/
theorem Ready.at_claimed (h : scope.Ready accepts b) {st : Search} {claimed : List Section}
    (hat : st.At b scope.sections claimed) (found? : Option Section) (note : Section → Misplaced)
    (asked : List Question) (hfound : ∀ s, found? = some s → s ∈ scope.sections)
    (hnote : ∀ s, (note s).found = s) :
    Search.At b scope.sections
      { st with found := st.found ++ (found?.map note).toList, asked := asked }
      (claimed ++ found?.toList) where
  claimed_iff s hs := by
    rw [List.any_append, Bool.or_eq_true, List.mem_append, hat.claimed_iff s hs]
    refine or_congr_right ?_
    cases found? with
    | none => simp
    | some t =>
      simp only [Option.map_some, Option.toList_some, List.any_cons, List.any_nil, Bool.or_false,
        hnote, beq_iff_eq, List.mem_singleton]
      exact ⟨fun he => (h.eq_of_startLine (hfound t rfl) hs he).symm, fun he => he ▸ rfl⟩
  last := hat.last

/-- **What the search finds among settled nodes.** -/
theorem Ready.found_foldl_step (h : scope.Ready accepts b) (nodes : List Node) :
    ∀ {st : Search} {claimed : List Section}, Settled accepts scope.sections st.lastLine nodes →
      (∀ n ∈ nodes, ∀ s, n.boundTo? = some s → ¬ Free b s) →
      st.At b scope.sections claimed →
      (nodes.foldl (Search.step accepts b scope) st).found = st.found ++
        (verdicts accepts b scope.sections claimed st.lastText nodes).filterMap
          (Verdict.misplaced? scope.line) := by
  induction nodes with
  | nil => intro st claimed _ _ _; simp
  | cons n ns ih =>
    intro st claimed hsettled hbound hat
    obtain ⟨hboundHere, hbound⟩ := List.forall_mem_cons.1 hbound
    rw [List.foldl_cons]
    cases hsettled with
    | @bound _ _ s _ hn hs hlater hrest =>
      have hstep : Search.step accepts b scope st n =
          { st with lastLine := s.startLine, lastText := s.heading.text } := by
        unfold Search.step
        rw [hn]
        exact if_pos hlater
      rw [hstep, verdicts_cons_bound hn]
      exact ih hrest hbound (h.at_bound hat hs (hboundHere s hn))
    | unbound hn hrejects hrest =>
      have hstep : Search.step accepts b scope st n =
          { st with
            found := st.found ++ ((firstFree? accepts b scope.sections claimed n).map fun s =>
              Misplaced.mk scope.line n.order n.element s st.lastText).toList
            asked := (Search.step accepts b scope st n).asked } := by
        unfold Search.step
        rw [hn]
        dsimp only
        rw [h.find?_claimable hat hrejects]
        cases firstFree? accepts b scope.sections claimed n <;> rfl
      have hat' := h.at_claimed hat (firstFree? accepts b scope.sections claimed n)
        (fun s => Misplaced.mk scope.line n.order n.element s st.lastText)
        (Search.step accepts b scope st n).asked (fun s hs => (firstFree?_spec hs).1) fun _ => rfl
      rw [hstep, verdicts_cons_unbound hn, List.filterMap_cons, ih (by exact hrest) hbound hat']
      unfold Verdict.misplaced?
      cases firstFree? accepts b scope.sections claimed n <;> simp

/-- What the search finds in a scope, if nothing was claimed there before. -/
theorem Ready.found_inScope (h : scope.Ready accepts b) {st : Search}
    (hst : ∀ m ∈ st.found, ∀ s ∈ scope.sections, m.found.startLine ≠ s.startLine) :
    (Search.inScope accepts b st scope).found = st.found ++ scope.misplaced accepts b := by
  have hat : Search.At b scope.sections { st with lastLine := 0, lastText := "" } [] := by
    refine ⟨fun s hs => ?_, fun s hs he => ?_⟩
    · simpa using fun m hm => hst m hm s hs
    · exact absurd (h.positive s hs) (he ▸ Nat.lt_irrefl 0)
  exact h.found_foldl_step scope.siblings h.settled h.bound hat

theorem mem_misplaced {m : Misplaced} (h : m ∈ scope.misplaced accepts b) :
    m.line = scope.line ∧ m.found ∈ scope.sections := by
  obtain ⟨v, hv, hm⟩ := List.mem_filterMap.1 h
  obtain ⟨s, hs, rfl⟩ := Option.map_eq_some_iff.1 hm
  obtain ⟨before, later, hsplit⟩ := List.append_of_mem hv
  exact ⟨rfl, (firstFree?_spec ((found_of_verdicts _ hsplit).symm.trans hs)).1⟩

end Scope

/-! ## The search in all scopes -/

/-- Scopes have no section in common. -/
def Scope.Apart (scope scope' : Scope) : Prop :=
  ∀ s ∈ scope.sections, ∀ t ∈ scope'.sections, s.startLine ≠ t.startLine

/-- **What the search finds in scopes that have no section in common.** -/
theorem found_foldl_inScope {accepts : Accepts} {b : Binding} (scopes : List Scope) :
    ∀ {st : Search}, (∀ scope ∈ scopes, scope.Ready accepts b) → scopes.Pairwise Scope.Apart →
      (∀ m ∈ st.found, ∀ scope ∈ scopes, ∀ s ∈ scope.sections,
        m.found.startLine ≠ s.startLine) →
      (scopes.foldl (Search.inScope accepts b) st).found =
        st.found ++ scopes.flatMap (Scope.misplaced accepts b) := by
  induction scopes with
  | nil => intro st _ _ _; simp
  | cons scope scopes ih =>
    intro st hready hapart hst
    obtain ⟨hhere, hready⟩ := List.forall_mem_cons.1 hready
    obtain ⟨hcross, hapart⟩ := List.pairwise_cons.1 hapart
    have hfound := hhere.found_inScope fun m hm => hst m hm scope List.mem_cons_self
    rw [List.foldl_cons, ih hready hapart, hfound, List.flatMap_cons, List.append_assoc]
    intro m hm scope' hscope' s hs
    rw [hfound, List.mem_append] at hm
    rcases hm with hm | hm
    · exact hst m hm scope' (List.mem_cons_of_mem _ hscope') s hs
    · exact hcross scope' hscope' m.found (Scope.mem_misplaced hm).2 s hs

section

variable {accepts : Accepts} {d : Document} {elements : List Element}

theorem mem_scopes {scope : Scope} (b : Binding) :
    scope ∈ b.scopes d ↔ scope = ⟨0, b.roots, d.sections⟩ ∨
      ∃ q ∈ b.nodes, ∃ s, q.node.boundTo? = some s ∧
        scope = ⟨s.startLine, q.node.children, s.children⟩ := by
  rw [Binding.scopes, List.mem_cons, List.mem_filterMap]
  simp only [Placed.scope?, Option.map_eq_some_iff, eq_comm (b := scope)]

/-- The nodes of a scope of a document are matched with its sections. -/
theorem siblings_of_mem_scopes (h : Regular d.sections) {scope : Scope}
    (hscope : scope ∈ (bindDocument accepts d elements).scopes d) :
    Regular scope.sections ∧ ∃ below : List Element,
      scope.siblings = matchSiblings accepts below 0 scope.sections 0 := by
  rcases (mem_scopes _).1 hscope with rfl | ⟨q, hq, s, hs, rfl⟩
  · exact ⟨h, elements, bindDocument_roots accepts elements h⟩
  · have hnode := node_mem_allNodes hq
    rw [bindDocument_roots accepts elements h] at hnode
    obtain ⟨hreg, hchildren⟩ := children_eq_matchSiblings accepts elements h q.node hnode
    rw [Node.sections, hs] at hreg hchildren
    exact ⟨hreg, q.node.element.children, hchildren⟩

theorem ready_of_mem_scopes (h : Regular d.sections) :
    ∀ scope ∈ (bindDocument accepts d elements).scopes d,
      scope.Ready accepts (bindDocument accepts d elements) := by
  intro scope hscope
  obtain ⟨hreg, below, hsiblings⟩ := siblings_of_mem_scopes h hscope
  have hinside : (∀ s ∈ scope.sections, s ∈ d.allSections) ∧
      ∀ n ∈ scope.siblings, ∃ q ∈ (bindDocument accepts d elements).nodes, q.node = n := by
    rcases (mem_scopes _).1 hscope with rfl | ⟨q, hq, s, hs, rfl⟩
    · exact ⟨fun s hs => (sublist_walkAll _).subset hs,
        fun n hn => ⟨_, mem_walkNodes_of_mem hn [], rfl⟩⟩
    · exact ⟨fun t ht => mem_walkAll_children (mem_allSections_of_mem_nodes accepts h hq hs) ht,
        fun n hn => ⟨_, mem_walkNodes_children hq hn, rfl⟩⟩
  refine ⟨hreg.siblings, fun s hs => hreg.positive s ((sublist_walkAll _).subset hs),
    fun s hs => isBound_eq_false_iff h (hinside.1 s hs), ?_, fun n hn s hs => ?_⟩
  · rw [hsiblings]
    exact settled_matchSiblings accepts below 0 0 hreg.siblings
  · obtain ⟨q, hq, rfl⟩ := hinside.2 n hn
    exact not_free_iff.2 ⟨q, hq, hs⟩

theorem pairwise_apart_scopes (h : Regular d.sections) :
    ((bindDocument accepts d elements).scopes d).Pairwise Scope.Apart := by
  have hmem : ∀ q ∈ (bindDocument accepts d elements).nodes, ∀ s, q.node.boundTo? = some s →
      s ∈ d.allSections := fun q hq s hs => mem_allSections_of_mem_nodes accepts h hq hs
  refine List.pairwise_cons.2 ⟨fun scope hscope s hs t ht he => ?_, ?_⟩
  · obtain ⟨q, hq, hscope⟩ := List.mem_filterMap.1 hscope
    obtain ⟨u, hu, rfl⟩ := Option.map_eq_some_iff.1 hscope
    have hu := hmem q hq u hu
    rw [h.eq_of_startLine ((sublist_walkAll _).subset hs) (mem_walkAll_children hu ht) he] at hs
    exact h.not_mem_children hs hu ht
  · have hnodup := nodup_boundSections accepts elements h
    rw [← filterMap_boundTo_nodes] at hnodup
    refine List.pairwise_filterMap.2 ((List.pairwise_filterMap.1 hnodup).imp_of_mem ?_)
    intro p q hp hq hne scope hscope scope' hscope' s hs t ht he
    obtain ⟨u, hu, rfl⟩ := Option.map_eq_some_iff.1 hscope
    obtain ⟨v, hv, rfl⟩ := Option.map_eq_some_iff.1 hscope'
    have hup := hmem p hp u hu
    have hvq := hmem q hq v hv
    rw [h.eq_of_startLine (mem_walkAll_children hup hs) (mem_walkAll_children hvq ht) he] at hs
    exact hne u hu v hv (h.parent_eq hup hvq hs ht)

/-- **The search finds the sections that the verdicts claim.** -/
theorem found_searchMisplaced (h : Regular d.sections) :
    (searchMisplaced accepts (bindDocument accepts d elements) d).found =
      ((bindDocument accepts d elements).scopes d).flatMap
        (Scope.misplaced accepts (bindDocument accepts d elements)) :=
  found_foldl_inScope _ (ready_of_mem_scopes h) (pairwise_apart_scopes h)
    fun _ hm => absurd hm List.not_mem_nil

end

end Outline

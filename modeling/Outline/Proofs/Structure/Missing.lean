import Mathlib.Data.List.Perm.Basic
import Outline.Proofs.Structure.Pass
import Outline.Proofs.Structure.Verdict

/-!
# Missing and misplaced elements

**Every node without a section, in a scope that the document has, is reported exactly once**
(`findings_perm_verdicts`): as misplaced where the verdict on it claims a section, and as missing
otherwise. Below a node without a section nothing is reported, as the document has no scope there.

* `Binding.places`, `Binding.scopeIn`: the scopes of a document by the nodes that they lie in;
* `Binding.verdictsIn`, `Verdict.finding`: what is said about the nodes of a scope, and reported;
* `VerdictsReported`: what is reported about all nodes.
-/

namespace Outline

/-! ## Scopes by their place -/

/-- Where scopes lie: at the top, and below the nodes with a section, each with its ancestors. -/
def Binding.places (b : Binding) : List (List Node) :=
  [] :: b.boundNodes.map fun p => p.node :: p.ancestors

/-- The scope that lies in the given nodes, the nearest first. -/
def Binding.scopeIn (b : Binding) (d : Document) : List Node → Scope
  | [] => ⟨0, b.roots, d.sections⟩
  | n :: _ => ⟨n.startLine?.getD 0, n.children, n.sections⟩

theorem scopes_eq_map_scopeIn (b : Binding) (d : Document) :
    b.scopes d = b.places.map (b.scopeIn d) := by
  rw [Binding.scopes, Binding.places, List.map_cons, List.map_map, Binding.boundNodes]
  refine congrArg (_ :: ·) ?_
  induction b.nodes with
  | nil => rfl
  | cons p ps ih =>
    rw [List.filterMap_cons, List.filter_cons, Placed.scope?, Node.isBound]
    cases hp : p.node.boundTo? with
    | none => exact ih
    | some s =>
      rw [if_pos Option.isSome_some, List.map_cons, ← ih]
      simp [Binding.scopeIn, Node.startLine?, Node.sections, hp]

/-- What is said about the nodes of the scope that lies in the given nodes. -/
noncomputable def Binding.verdictsIn (accepts : Accepts) (b : Binding) (d : Document)
    (around : List Node) : List Verdict :=
  verdicts accepts b (b.scopeIn d around).sections [] "" (b.scopeIn d around).siblings

/-- The node that a verdict is about, in its place. -/
def Verdict.placed (around : List Node) (v : Verdict) : Placed := ⟨v.node, around⟩

/-- The finding of a verdict on a node of the scope that lies in the given nodes. -/
def Verdict.finding (around : List Node) (v : Verdict) : Finding :=
  match v.found? with
  | some s => .misplaced v.node.element s.heading v.after
  | none => .missing ((around.head?.map Node.headingText).getD documentRoot) v.node.element
      (v.placed around).location

/-- **What is reported about the nodes without a section**, given the nodes and the findings. In
each scope such nodes have one verdict each, in order: a node claims the first section of the scope
that its heading accepts, that no node has and that no node before it claims, and is called missing
only if there is none. The verdicts are about the nodes without a section whose ancestors all have
one. Each verdict is reported once, and nothing else is reported as missing or misplaced. -/
structure VerdictsReported (accepts : Accepts) (d : Document) (b : Binding)
    (findings : List Finding) : Prop where
  each : ∀ around ∈ b.places, (b.verdictsIn accepts d around).map Verdict.node =
    (b.scopeIn d around).siblings.filter fun n => !n.isBound
  first : ∀ around ∈ b.places, ∀ before v later,
    b.verdictsIn accepts d around = before ++ v :: later →
      v.found? = firstFree? accepts b (b.scopeIn d around).sections
        (before.filterMap Verdict.found?) v.node
  missing : ∀ around ∈ b.places, ∀ before v later,
    b.verdictsIn accepts d around = before ++ v :: later → v.found? = none →
      ∀ s ∈ (b.scopeIn d around).sections, accepts v.node.element.heading s.heading = true →
        Free b s → ∃ u ∈ before, u.found? = some s
  required : ∀ p ∈ b.unboundNodes, p.node.element.isRequired = true
  covered : (b.unboundNodes.filter fun p => p.ancestors.all Node.isBound).Perm
    (b.places.flatMap fun around => (b.verdictsIn accepts d around).map (Verdict.placed around))
  reported : (ofPass .missing findings ++ ofPass .misplaced findings).Perm
    (b.places.flatMap fun around => (b.verdictsIn accepts d around).map (Verdict.finding around))

section

variable {accepts : Accepts} {d : Document} {elements : List Element}

/-! ## The nodes of all scopes -/

theorem flatMap_filter_eq {α β : Type} (p : α → Bool) (f : α → List β) (l : List α) :
    (l.filter p).flatMap f = l.flatMap fun a => if p a then f a else [] := by
  induction l with
  | nil => rfl
  | cons a l ih =>
    rw [List.filter_cons, List.flatMap_cons, ← ih]
    split_ifs <;> simp

/-- **The verdicts are about the nodes without a section whose ancestors all have one.** -/
theorem verdicts_cover (h : Regular d.sections) :
    ((bindDocument accepts d elements).unboundNodes.filter fun p =>
      p.ancestors.all Node.isBound).Perm
    ((bindDocument accepts d elements).places.flatMap fun around =>
      ((bindDocument accepts d elements).verdictsIn accepts d around).map
        (Verdict.placed around)) := by
  generalize hb : bindDocument accepts d elements = b
  have hplaced : ∀ around, (b.verdictsIn accepts d around).map (Verdict.placed around) =
      ((b.scopeIn d around).siblings.filter fun n => !n.isBound).map (Placed.mk · around) := by
    intro around
    rw [← map_node_verdicts, List.map_map]
    rfl
  rw [funext hplaced, Binding.unboundNodes, List.filter_filter, Binding.nodes]
  refine ((walkNodes_perm b.roots []).filter _).trans (.of_eq ?_)
  rw [Binding.places, List.flatMap_cons, List.filter_append]
  congr 1
  · rw [List.filter_map]
    exact congrArg _ (List.filter_congr fun n _ => by simp)
  · rw [List.filter_flatMap, List.flatMap_map, Binding.boundNodes, flatMap_filter_eq]
    refine List.flatMap_congr fun p hp => ?_
    rw [List.filter_map]
    cases hbound : p.node.isBound with
    | false =>
      rw [List.filter_eq_nil_iff.2 fun n _ => by simp [hbound]]
      rfl
    | true =>
      have hancestors : p.ancestors.all Node.isBound = true := by
        subst hb
        exact List.all_eq_true.2 (isBound_of_ancestor h hp hbound)
      exact congrArg _ (List.filter_congr fun n _ => by simp [hbound, hancestors])

/-! ## What the search found -/

theorem found_eq_verdicts (h : Regular d.sections) :
    (searchMisplaced accepts (bindDocument accepts d elements) d).found =
      (bindDocument accepts d elements).places.flatMap fun around =>
        ((bindDocument accepts d elements).verdictsIn accepts d around).filterMap
          (Verdict.misplaced? ((bindDocument accepts d elements).scopeIn d around).line) := by
  rw [found_searchMisplaced h, scopes_eq_map_scopeIn, List.flatMap_map]
  rfl

theorem mem_places {b : Binding} {around : List Node} : around ∈ b.places ↔ around = [] ∨
    ∃ p ∈ b.nodes, ∃ s, p.node.boundTo? = some s ∧ p.node :: p.ancestors = around := by
  rw [Binding.places, List.mem_cons, List.mem_map]
  refine or_congr_right (exists_congr fun p => ?_)
  rw [Binding.boundNodes, List.mem_filter, Node.isBound, Option.isSome_iff_exists, and_assoc]
  exact and_congr_right fun _ => exists_and_right.symm

/-- Scopes of a document lie below different lines. -/
theorem eq_of_line_eq (h : Regular d.sections) {around around' : List Node}
    (hmem : around ∈ (bindDocument accepts d elements).places)
    (hmem' : around' ∈ (bindDocument accepts d elements).places)
    (he : ((bindDocument accepts d elements).scopeIn d around).line =
      ((bindDocument accepts d elements).scopeIn d around').line) : around = around' := by
  rcases mem_places.1 hmem with rfl | ⟨p, hp, s, hps, rfl⟩ <;>
    rcases mem_places.1 hmem' with rfl | ⟨q, hq, t, hqt, rfl⟩
  · rfl
  · have hpos := h.positive t (mem_allSections_of_mem_nodes accepts h hq hqt)
    simp only [Binding.scopeIn, Node.startLine?, hqt, Option.map_some, Option.getD_some] at he
    omega
  · have hpos := h.positive s (mem_allSections_of_mem_nodes accepts h hp hps)
    simp only [Binding.scopeIn, Node.startLine?, hps, Option.map_some, Option.getD_some] at he
    omega
  · simp only [Binding.scopeIn, Node.startLine?, hps, hqt, Option.map_some, Option.getD_some] at he
    have hst := h.eq_of_startLine (mem_allSections_of_mem_nodes accepts h hp hps)
      (mem_allSections_of_mem_nodes accepts h hq hqt) he
    rw [eq_of_boundTo h hp hq hps (hst ▸ hqt)]

/-- Verdicts on nodes of one scope are about nodes at different places. -/
theorem nodup_order_verdictsIn (h : Regular d.sections) {around : List Node}
    (hmem : around ∈ (bindDocument accepts d elements).places) :
    (((bindDocument accepts d elements).verdictsIn accepts d around).map
      fun v => v.node.order).Nodup := by
  have hscope : (bindDocument accepts d elements).scopeIn d around ∈
      (bindDocument accepts d elements).scopes d := by
    rw [scopes_eq_map_scopeIn]
    exact List.mem_map_of_mem hmem
  obtain ⟨-, below, hsiblings⟩ := siblings_of_mem_scopes h hscope
  rw [← Function.comp_def Node.order Verdict.node, ← List.map_map, Binding.verdictsIn,
    map_node_verdicts, hsiblings]
  exact List.pairwise_map.2 ((pairwise_order_unbound accepts below 0 _ 0).imp Nat.ne_of_lt)

/-- **A node is among the misplaced ones if its verdict claims a section.** -/
theorem isMisplaced_placed (h : Regular d.sections) {around : List Node}
    (hmem : around ∈ (bindDocument accepts d elements).places) {v : Verdict}
    (hv : v ∈ (bindDocument accepts d elements).verdictsIn accepts d around) :
    (v.placed around).isMisplaced
      (searchMisplaced accepts (bindDocument accepts d elements) d).found = v.found?.isSome := by
  have hline : ((v.placed around).parent?.bind Node.startLine?).getD 0 =
      ((bindDocument accepts d elements).scopeIn d around).line := by
    cases around <;> rfl
  rw [Placed.isMisplaced, hline, found_eq_verdicts h, Bool.eq_iff_iff, List.any_eq_true,
    Option.isSome_iff_exists]
  constructor
  · rintro ⟨m, hm, he⟩
    obtain ⟨around', hmem', hm⟩ := List.mem_flatMap.1 hm
    obtain ⟨u, hu, hm⟩ := List.mem_filterMap.1 hm
    obtain ⟨s, hs, rfl⟩ := Option.map_eq_some_iff.1 hm
    rw [Bool.and_eq_true, beq_iff_eq, beq_iff_eq] at he
    obtain rfl := eq_of_line_eq h hmem' hmem he.1
    rw [← List.inj_on_of_nodup_map (nodup_order_verdictsIn h hmem') hu hv he.2]
    exact ⟨s, hs⟩
  · rintro ⟨s, hs⟩
    have hm : v.misplaced? ((bindDocument accepts d elements).scopeIn d around).line =
        some ⟨_, v.node.order, v.node.element, s, v.after⟩ := Option.map_eq_some_iff.2 ⟨s, hs, rfl⟩
    exact ⟨_, List.mem_flatMap.2 ⟨around, hmem, List.mem_filterMap.2 ⟨v, hv, hm⟩⟩,
      by simp [Verdict.placed]⟩

/-! ## What is reported -/

theorem misplacedSections_eq (h : Regular d.sections) :
    misplacedSections (searchMisplaced accepts (bindDocument accepts d elements) d).found =
      (bindDocument accepts d elements).places.flatMap fun around =>
        (((bindDocument accepts d elements).verdictsIn accepts d around).filter
          fun v => v.found?.isSome).map (Verdict.finding around) := by
  rw [misplacedSections, found_eq_verdicts h, List.map_flatMap]
  refine List.flatMap_congr fun around _ => ?_
  generalize Binding.verdictsIn accepts _ d around = vs
  induction vs with
  | nil => rfl
  | cons v vs ih =>
    rw [List.filterMap_cons, List.filter_cons, Verdict.misplaced?]
    cases hv : v.found? with
    | none => exact ih
    | some s =>
      rw [if_pos Option.isSome_some, List.map_cons, ← ih]
      simp [Verdict.finding, hv]

theorem missingElements_perm (h : Regular d.sections) :
    (missingElements (bindDocument accepts d elements)
      (searchMisplaced accepts (bindDocument accepts d elements) d).found).Perm
      ((bindDocument accepts d elements).places.flatMap fun around =>
        (((bindDocument accepts d elements).verdictsIn accepts d around).filter
          fun v => !v.found?.isSome).map (Verdict.finding around)) := by
  unfold missingElements
  rw [← List.filter_filter]
  refine (((verdicts_cover h).filter _).map _).trans (.of_eq ?_)
  rw [List.filter_flatMap, List.map_flatMap]
  refine List.flatMap_congr fun around hmem => ?_
  rw [List.filter_map, List.map_map, Function.comp_def (fun p : Placed => !p.isMisplaced _),
    List.filter_congr fun v hv => congrArg (!·) (isMisplaced_placed h hmem hv)]
  refine List.map_congr_left fun v hv => ?_
  have hnone : v.found? = none := by simpa using (List.mem_filter.1 hv).2
  cases around <;> simp [Verdict.finding, Verdict.placed, Placed.parent?, hnone]

/-- **Each verdict is reported once, and nothing else is.** -/
theorem findings_perm_verdicts (h : Regular d.sections) :
    (missingElements (bindDocument accepts d elements)
        (searchMisplaced accepts (bindDocument accepts d elements) d).found ++
      misplacedSections (searchMisplaced accepts (bindDocument accepts d elements) d).found).Perm
      ((bindDocument accepts d elements).places.flatMap fun around =>
        ((bindDocument accepts d elements).verdictsIn accepts d around).map
          (Verdict.finding around)) := by
  rw [misplacedSections_eq h]
  refine ((missingElements_perm h).append_right _).trans ((List.flatMap_append_perm _ _ _).trans
    (List.Perm.flatMap_left _ fun around _ => ?_))
  rw [← List.map_append]
  exact (List.perm_append_comm.trans (List.filter_append_perm _ _)).map _

end

/-- **The nodes without a section, in a document that was read, are reported as verdicts say.** -/
theorem verdictsReported_structureFindings (accepts : Accepts) {text path : String} {d : Document}
    (h : parseDocument text path = .ok d) (elements : List Element) :
    VerdictsReported accepts d (bindDocument accepts d elements)
      (structureFindings accepts (bindDocument accepts d elements) d elements) := by
  have hreg := regular_of_parseDocument h
  have hfirst : ∀ around before v later,
      (bindDocument accepts d elements).verdictsIn accepts d around = before ++ v :: later →
        v.found? = firstFree? accepts (bindDocument accepts d elements)
          ((bindDocument accepts d elements).scopeIn d around).sections
          (before.filterMap Verdict.found?) v.node := by
    intro around before v later hsplit
    rw [found_of_verdicts _ hsplit, List.nil_append]
  refine ⟨fun around _ => map_node_verdicts _ _ _, fun around _ => hfirst around, ?_,
    fun p hp => ?_, verdicts_cover hreg, ?_⟩
  · intro around _ before v later hsplit hnone s hs haccepts hfree
    rw [hfirst around before v later hsplit, firstFree?_eq_none_iff] at hnone
    exact List.mem_filterMap.1 (hnone s hs haccepts hfree)
  · obtain ⟨hp, hunbound⟩ := List.mem_filter.1 hp
    have hnode := node_mem_allNodes hp
    rw [bindDocument_roots accepts elements hreg] at hnode
    exact isRequired_of_unbound accepts elements p.node hnode (by simpa using hunbound)
  · rw [ofPass_missing, ofPass_misplaced]
    exact findings_perm_verdicts hreg

/-- In the sample `C` stands before the last `B`, and there is no `D` below `A`. -/
example : (structureFindings (HeadingSpec.accepts "")
    (bindDocument (HeadingSpec.accepts "") sampleDocument sampleElements) sampleDocument
    sampleElements).map (fun f => (f.pass, f.place)) =
      [(.unexpected, (5, 4)), (.missing, (1, 3)), (.misplaced, (5, 4))] := by
  decide

theorem verdictsReported_sample : parseDocument sampleText "" = .ok sampleDocument ∧
    VerdictsReported (HeadingSpec.accepts "") sampleDocument
      (bindDocument (HeadingSpec.accepts "") sampleDocument sampleElements)
      (structureFindings (HeadingSpec.accepts "")
        (bindDocument (HeadingSpec.accepts "") sampleDocument sampleElements) sampleDocument
        sampleElements) :=
  ⟨parseDocument_sample, verdictsReported_structureFindings _ parseDocument_sample sampleElements⟩

end Outline

import Outline.Proofs.Rule.Literal
import Outline.Proofs.Structure.Scopes

/-!
# Occurrences in accepted documents

**In an accepted document every element of every scope has as many sections as it asks for**
(`occurrencesKept_of_accepted`). Four parts of the program see to it: an element takes no more
sections than its upper bound, a required element without a section is missing or misplaced, a
repeatable one with too few sections is found by the last pass, and one that is not repeatable asks
for no more than one. Only bounds that exclude each other are not kept: an element that has to occur
more than once and may occur only once is content with one section (`Element.Conflicting`).

* `sectionsAt`: the sections bound to the element at a place of a scope;
* `Element.WithinBounds`: sections as many as an element asks for;
* `WellBound.withinBounds`: one scope;
* `OccurrencesKept`: all scopes of a document.
-/

namespace Outline

/-! ## Bounds -/

/-- The sections bound to the element at a place of a scope, given the nodes of the scope. -/
def sectionsAt (nodes : List Node) (order : Nat) : List Section :=
  (nodes.filter fun n => n.order == order).filterMap Node.boundTo?

/-- An element that has to occur more than once and may occur only once. -/
def Element.Conflicting (e : Element) : Prop :=
  ∃ bounds, e.count = some bounds ∧ bounds.max.value = 1 ∧ 1 < bounds.min.value

/-- **Sections as many as an element asks for**, none of them twice: no fewer than its lower bound,
and no more than its upper bound if it has one. If the bounds exclude each other, it is one
section. -/
structure Element.WithinBounds (e : Element) (sections : List Section) : Prop where
  distinct : (sections.map Section.startLine).Nodup
  enough : ¬ e.Conflicting → e.least.value ≤ sections.length
  one : e.Conflicting → sections.length = 1
  limited : ∀ bounds, e.count = some bounds → 0 < bounds.max.value →
    sections.length ≤ bounds.max.value

theorem Element.Conflicting.isRequired {e : Element} (h : e.Conflicting) : e.isRequired = true := by
  obtain ⟨bounds, hcount, -, hmin⟩ := h
  rw [Element.isRequired, Element.least, hcount]
  exact decide_eq_true (Nat.zero_lt_of_lt hmin)

theorem Element.Conflicting.isRepeatable {e : Element} (h : e.Conflicting) :
    e.isRepeatable = false := by
  obtain ⟨bounds, hcount, hmax, -⟩ := h
  rw [Element.isRepeatable, hcount]
  simp [hmax]

/-- An element that is not repeatable asks for no more than one section, unless its bounds exclude
each other. -/
theorem Element.least_le_one {e : Element} (hsingle : e.isRepeatable = false)
    (h : ¬ e.Conflicting) : e.least.value ≤ 1 := by
  rw [least]
  rw [Element.isRepeatable] at hsingle
  cases hcount : e.count with
  | none =>
    dsimp only
    split_ifs
    · exact Nat.zero_le 1
    · exact Nat.le_refl 1
  | some bounds =>
    rw [hcount] at hsingle
    refine Nat.not_lt.1 fun hmin => h ⟨bounds, hcount, ?_, hmin⟩
    simpa using hsingle

/-! ## One scope -/

/-- The nodes of an element that all have a section, counted by the last pass. -/
theorem Served.withinBounds {e : Element} {order : Nat} {nodes : List Node}
    (h : Served e order nodes) (hbound : ∀ n ∈ nodes, n.isBound = true)
    (hcounted : ∀ n ∈ nodes, n.element.isRepeatable = true → n.matchIndex = 0 →
      n.element.least.value ≤ n.matchCount)
    (hdistinct : ((nodes.filterMap Node.boundTo?).map Section.startLine).Nodup) :
    e.WithinBounds (nodes.filterMap Node.boundTo?) := by
  have hlength : (nodes.filterMap Node.boundTo?).length = nodes.length :=
    List.filterMap_length_eq_length.2 hbound
  cases h with
  | bound _ occurs each counted single limited =>
    refine ⟨hdistinct, fun hfits => ?_, fun hconflict => ?_, hlength ▸ limited⟩
    · rw [hlength]
      cases hrepeatable : e.isRepeatable with
      | true =>
        -- the first of the nodes counts all of them
        obtain ⟨n, rest, rfl⟩ := List.exists_cons_of_ne_nil occurs
        obtain ⟨-, rfl, -, hcount⟩ := each n List.mem_cons_self
        have hfirst : n.matchIndex = 0 := by
          rw [List.length_cons, List.range_succ_eq_map, List.map_cons] at counted
          exact (List.cons.inj counted).1
        rw [← hcount]
        exact hcounted n List.mem_cons_self hrepeatable hfirst
      | false =>
        exact (Element.least_le_one hrepeatable hfits).trans (List.length_pos_iff.2 occurs)
    · rw [hlength]
      exact Nat.le_antisymm (single hconflict.isRepeatable) (List.length_pos_iff.2 occurs)
  | missing n unbound =>
    rw [hbound n (List.mem_singleton_self n)] at unbound
    cases unbound
  | absent optional =>
    refine ⟨hdistinct, fun _ => ?_, fun hconflict => ?_, fun _ _ _ => Nat.zero_le _⟩
    · rw [Element.isRequired, decide_eq_false_iff_not, Nat.not_lt] at optional
      exact optional
    · rw [hconflict.isRequired] at optional
      cases optional

/-- The nodes of an element in a scope are those at its place. -/
theorem sectionsAt_append {before here later : List Node} {order : Nat}
    (hbefore : ∀ n ∈ before, n.order < order) (hhere : ∀ n ∈ here, n.order = order)
    (hlater : ∀ n ∈ later, order < n.order) :
    sectionsAt (before ++ here ++ later) order = here.filterMap Node.boundTo? := by
  have hnone : before.filter (fun n => n.order == order) = [] :=
    List.filter_eq_nil_iff.2 fun n hn => by simpa using Nat.ne_of_lt (hbefore n hn)
  have hnone' : later.filter (fun n => n.order == order) = [] :=
    List.filter_eq_nil_iff.2 fun n hn => by simpa using Nat.ne_of_gt (hlater n hn)
  have hall : here.filter (fun n => n.order == order) = here :=
    List.filter_eq_self.2 fun n hn => by simpa using hhere n hn
  rw [sectionsAt, List.filter_append, List.filter_append, hnone, hnone', hall, List.nil_append,
    List.append_nil]

/-- **Every element of a scope has as many sections as it asks for**, if every node has a section
and the repeatable ones have enough. -/
theorem WellBound.withinBounds {above : Option Section} {elements : List Element}
    {sections : List Section} {nodes : List Node} (h : WellBound above elements sections nodes)
    (hbound : ∀ n ∈ nodes, n.isBound = true)
    (hcounted : ∀ n ∈ nodes, n.element.isRepeatable = true → n.matchIndex = 0 →
      n.element.least.value ≤ n.matchCount) {i : Nat} {e : Element} (he : elements[i]? = some e) :
    e.WithinBounds (sectionsAt nodes i) := by
  obtain ⟨before, here, later, rfl, hbefore, hserved, hlater⟩ := h.served i e he
  have hmem : ∀ n ∈ here, n ∈ before ++ here ++ later := fun n hn =>
    List.mem_append_left _ (List.mem_append_right _ hn)
  rw [sectionsAt_append hbefore (fun n hn => (hserved.order_eq n hn).2) hlater]
  refine hserved.withinBounds (fun n hn => hbound n (hmem n hn))
    (fun n hn => hcounted n (hmem n hn)) ?_
  have hincreasing := h.increasing
  rw [List.filterMap_append, List.filterMap_append] at hincreasing
  have hhere := (List.pairwise_append.1 (List.pairwise_append.1 hincreasing).1).2.1
  exact List.pairwise_map.2 (hhere.imp Nat.ne_of_lt)

/-! ## Documents -/

/-- Every element of every scope, at the top and below each node, has as many sections as it asks
for. -/
structure OccurrencesKept (elements : List Element) (b : Binding) : Prop where
  top : ∀ (i : Nat) (e : Element), elements[i]? = some e →
    e.WithinBounds (sectionsAt b.roots i)
  below : ∀ p ∈ b.nodes, ∀ (i : Nat) (e : Element), p.node.element.children[i]? = some e →
    e.WithinBounds (sectionsAt p.node.children i)

/-- Where every scope is in order, each element has as many sections as it asks for. -/
theorem InOrder.occurrencesKept {accepts : Accepts} {d : Document} {elements : List Element}
    (hreg : Regular d.sections)
    (h : InOrder accepts d elements (bindDocument accepts d elements)) :
    OccurrencesKept elements (bindDocument accepts d elements) := by
  constructor
  · intro i e he
    have hwell : WellBound none elements d.sections (bindDocument accepts d elements).roots := by
      rw [bindDocument_roots accepts elements hreg]
      exact wellBound_matchSiblings accepts elements hreg fun _ ht => nomatch ht
    have hmem : ∀ n ∈ (bindDocument accepts d elements).roots,
        ⟨n, []⟩ ∈ (bindDocument accepts d elements).nodes := fun n hn => mem_walkNodes_of_mem hn []
    exact hwell.withinBounds (fun n hn => h.bound _ (hmem n hn))
      (fun n hn => h.enough _ (hmem n hn)) he
  · intro p hp i e he
    have hmem : ∀ n ∈ p.node.children,
        ⟨n, p.node :: p.ancestors⟩ ∈ (bindDocument accepts d elements).nodes := fun n hn =>
      mem_walkNodes_children hp hn
    exact (wellBound_children accepts hreg hp).withinBounds (fun n hn => h.bound _ (hmem n hn))
      (fun n hn => h.enough _ (hmem n hn)) he

/-- **In an accepted document every element of every scope has as many sections as it asks for.** -/
theorem occurrencesKept_of_accepted {text path : String} {d : Document}
    (h : parseDocument text path = .ok d) {schema : Schema} {root : String}
    (haccepted : (Run.journal do structureRule (← openContext d schema root)).1 = .ok []) :
    OccurrencesKept schema.elements (bindingOf d schema) := by
  have hreg := regular_of_parseDocument h
  have hnone := mapM_eq_ok_nil (structureRun_ok_iff.1 haccepted).2.2
  exact ((structureFindings_eq_nil_iff_inOrder _ hreg).1 hnone).occurrencesKept hreg

/-- A schema for the sample: `A` as often as given, with `B` two or three times and other sections
in it. -/
def repeatedSchema (often : Option Bounds) : Schema :=
  { elements :=
      [{ heading := .literal "# A"
         count := often
         allowAdditional := true
         children := [{ heading := .literal "## B", count := some ⟨2, 3⟩ }] }] }

theorem accepted_repeatedSchema (often : Option Bounds)
    (h : structureFindings (HeadingSpec.accepts "")
      (bindingOf sampleDocument (repeatedSchema often)) sampleDocument
      (repeatedSchema often).elements = []) :
    (Run.journal do structureRule (← openContext sampleDocument (repeatedSchema often) "")).1 =
      .ok [] := by
  have hliteral : EachElement Element.IsLiteral (repeatedSchema often).elements :=
    .cons ⟨_, rfl⟩ (.cons ⟨_, rfl⟩ .nil .nil) .nil
  exact hliteral.accepted (regular_of_parseDocument parseDocument_sample) "" h

theorem occurrencesKept_repeated : parseDocument sampleText "" = .ok sampleDocument ∧
    (Run.journal do structureRule (← openContext sampleDocument (repeatedSchema none) "")).1 =
      .ok [] ∧
    OccurrencesKept (repeatedSchema none).elements
      (bindingOf sampleDocument (repeatedSchema none)) :=
  have haccepted := accepted_repeatedSchema none rfl
  ⟨parseDocument_sample, haccepted, occurrencesKept_of_accepted parseDocument_sample haccepted⟩

/-- Where `A` has to occur twice and may occur once, the sample is accepted with one `A`. -/
theorem fewer_of_conflicting : parseDocument sampleText "" = .ok sampleDocument ∧
    (Run.journal do
      structureRule (← openContext sampleDocument (repeatedSchema (some ⟨2, 1⟩)) "")).1 = .ok [] ∧
    ∃ e, (repeatedSchema (some ⟨2, 1⟩)).elements[0]? = some e ∧
      (sectionsAt (bindingOf sampleDocument (repeatedSchema (some ⟨2, 1⟩))).roots 0).length <
        e.least.value :=
  ⟨parseDocument_sample, accepted_repeatedSchema _ rfl, _, rfl, by decide⟩

end Outline

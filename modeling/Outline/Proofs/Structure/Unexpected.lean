import Outline.Proofs.Binding.Once
import Outline.Proofs.Structure.Pass

/-!
# Unexpected sections

**Every section of a document is accounted for in one way**: it is bound to exactly one node, or it
lies in a section that is bound to an element with additional sections, or it is reported as
unexpected, once and at its heading. Nothing else is reported as unexpected.

* `Welcome`: sections that lie in one with additional sections;
* `Fate`, `Fate.Meets`: what becomes of a section;
* `Accounted`: what becomes of all of them.
-/

namespace Outline

/-- The section lies in one that is bound to an element with additional sections. -/
def Welcome (b : Binding) (p : PlacedSection) : Prop :=
  ∃ s ∈ p.ancestors, ∃ q ∈ b.nodes,
    q.node.boundTo? = some s ∧ q.node.element.allowAdditional = true

/-- The finding that a section is unexpected, under the heading that it lies in. -/
def PlacedSection.unexpected (p : PlacedSection) : Finding :=
  .unexpected ((p.ancestors.head?.map (·.heading.text)).getD documentRoot) p.self.heading

/-- What becomes of a section. -/
inductive Fate where
  | bound
  | tolerated
  | reported

/-- What becomes of a section: it has exactly one node; or it has none, but lies in a section with
additional ones; or it has none, lies in no such section, and the findings have it exactly once at
the place of its heading. -/
def Fate.Meets (b : Binding) (findings : List Finding) (p : PlacedSection) : Fate → Prop
  | bound => BoundOnce b p.self
  | tolerated => Free b p.self ∧ Welcome b p
  | reported => Free b p.self ∧ ¬ Welcome b p ∧
      ((ofPass .unexpected findings).filter fun f =>
        f.place == (p.self.heading.line, p.self.heading.column)) = [p.unexpected]

open scoped Classical in
/-- **What becomes of the sections of a document**, given the nodes and the findings: each of them
meets one fate, the bound ones lie in bound ones, the sections without a node are kept in the order
of the document, and no others are reported. -/
structure Accounted (d : Document) (b : Binding) (findings : List Finding) : Prop where
  classified : ∀ p ∈ d.placedSections, ∃! fate : Fate, fate.Meets b findings p
  unmatched : b.unmatched d = d.allSections.filter fun s => Free b s
  closed : ∀ p ∈ d.placedSections, BoundOnce b p.self → ∀ s ∈ p.ancestors, BoundOnce b s
  nothingElse : ∀ f ∈ ofPass .unexpected findings, ∃ p ∈ d.placedSections,
    Fate.reported.Meets b findings p ∧ f = p.unexpected

section

variable {accepts : Accepts} {d : Document} {elements : List Element}

theorem mem_allSections_of_mem_placedSections {p : PlacedSection} (hp : p ∈ d.placedSections) :
    p.self ∈ d.allSections ∧ ∀ s ∈ p.ancestors, s ∈ d.allSections :=
  ⟨self_mem_walkAll hp,
    fun s hs => (mem_walkAll_of_ancestor hp s hs).resolve_right List.not_mem_nil⟩

theorem allowsAdditional_iff (h : Regular d.sections) {p : PlacedSection}
    (hp : p ∈ d.placedSections) :
    allowsAdditional (bindDocument accepts d elements) p = true ↔
      Welcome (bindDocument accepts d elements) p := by
  have hmem := (mem_allSections_of_mem_placedSections hp).2
  unfold allowsAdditional Welcome
  rw [List.any_eq_true]
  refine exists_congr fun s => and_congr_right fun hs => ?_
  constructor
  · intro hallow
    cases hnode : (bindDocument accepts d elements).nodeOf? s with
    | none => rw [hnode] at hallow; cases hallow
    | some n =>
      rw [hnode] at hallow
      obtain ⟨q, hq, rfl, hqs⟩ := (nodeOf?_eq_some_iff h (hmem s hs)).1 hnode
      exact ⟨q, hq, hqs, hallow⟩
  · rintro ⟨q, hq, hqs, hallow⟩
    rw [(nodeOf?_eq_some_iff h (hmem s hs)).2 ⟨q, hq, rfl, hqs⟩]
    exact hallow

/-- The section of an unexpected finding has no node and is not welcome. -/
theorem mem_unexpectedSections (h : Regular d.sections) {f : Finding} :
    f ∈ unexpectedSections (bindDocument accepts d elements) d ↔
      ∃ p ∈ d.placedSections, (Free (bindDocument accepts d elements) p.self ∧
        ¬ Welcome (bindDocument accepts d elements) p) ∧ p.unexpected = f := by
  unfold unexpectedSections
  rw [List.mem_map]
  refine exists_congr fun p => ?_
  rw [List.mem_filter, and_assoc]
  refine and_congr_right fun hp => and_congr_left fun _ => ?_
  rw [Bool.and_eq_true, Bool.not_eq_true', Bool.not_eq_true',
    isBound_eq_false_iff h (mem_allSections_of_mem_placedSections hp).1, ← Bool.not_eq_true,
    allowsAdditional_iff h hp]

/-- Two headings of a document stand at different places. -/
theorem eq_of_place_eq (h : Regular d.sections) {p q : PlacedSection} (hp : p ∈ d.placedSections)
    (hq : q ∈ d.placedSections)
    (he : q.unexpected.place = (p.self.heading.line, p.self.heading.column)) : q = p := by
  have hline : q.self.heading.line = p.self.heading.line := congrArg Prod.fst he
  rw [h.atHeading _ (mem_allSections_of_mem_placedSections hp).1,
    h.atHeading _ (mem_allSections_of_mem_placedSections hq).1] at hline
  exact h.placed_eq hq hp hline

/-- What is found once in a list of distinct members. -/
theorem filter_eq_singleton {α : Type} {l : List α} (hl : l.Nodup) {p : α → Bool} {a : α}
    (ha : a ∈ l) (hp : ∀ c ∈ l, p c = true ↔ c = a) : l.filter p = [a] := by
  induction l with
  | nil => exact absurd ha List.not_mem_nil
  | cons c l ih =>
    obtain ⟨hc, hl⟩ := List.nodup_cons.1 hl
    obtain ⟨hpc, hpl⟩ := List.forall_mem_cons.1 hp
    rcases List.mem_cons.1 ha with rfl | ha
    · rw [List.filter_cons_of_pos (hpc.2 rfl), List.filter_eq_nil_iff.2]
      intro b hb hpb
      exact hc ((hpl b hb).1 hpb ▸ hb)
    · rw [List.filter_cons_of_neg fun h => hc (hpc.1 h ▸ ha)]
      exact ih hl ha hpl

theorem nodup_placedSections (h : Regular d.sections) : d.placedSections.Nodup := by
  refine List.Nodup.of_map PlacedSection.self ?_
  rw [Document.placedSections, map_self_walkAllUnder]
  exact h.nodup

/-- **A section that is neither bound nor welcome is reported once, at its heading.** -/
theorem filter_unexpectedSections (h : Regular d.sections) {p : PlacedSection}
    (hp : p ∈ d.placedSections) (hfree : Free (bindDocument accepts d elements) p.self)
    (hwelcome : ¬ Welcome (bindDocument accepts d elements) p) :
    ((unexpectedSections (bindDocument accepts d elements) d).filter fun f =>
      f.place == (p.self.heading.line, p.self.heading.column)) = [p.unexpected] := by
  have hfilter : p ∈ d.placedSections.filter fun q =>
      !(bindDocument accepts d elements).isBound q.self &&
        !allowsAdditional (bindDocument accepts d elements) q := by
    rw [List.mem_filter, Bool.and_eq_true, Bool.not_eq_true', Bool.not_eq_true',
      isBound_eq_false_iff h (mem_allSections_of_mem_placedSections hp).1, ← Bool.not_eq_true,
      allowsAdditional_iff h hp]
    exact ⟨hp, hfree, hwelcome⟩
  change List.filter _ (List.map PlacedSection.unexpected _) = _
  rw [List.filter_map, filter_eq_singleton ((nodup_placedSections h).filter _) hfilter]
  · rfl
  · intro q hq
    rw [Function.comp_apply, beq_iff_eq]
    exact ⟨eq_of_place_eq h hp (List.mem_filter.1 hq).1, fun he => he ▸ rfl⟩

end

/-- **Every section of a document that was read is accounted for.** -/
theorem accounted_structureFindings (accepts : Accepts) {text path : String} {d : Document}
    (h : parseDocument text path = .ok d) (elements : List Element) :
    Accounted d (bindDocument accepts d elements)
      (structureFindings accepts (bindDocument accepts d elements) d elements) := by
  have hreg := regular_of_parseDocument h
  have hreported : ∀ p ∈ d.placedSections, Free (bindDocument accepts d elements) p.self →
      ¬ Welcome (bindDocument accepts d elements) p →
      Fate.reported.Meets (bindDocument accepts d elements)
        (structureFindings accepts (bindDocument accepts d elements) d elements) p := by
    intro p hp hfree hwelcome
    refine ⟨hfree, hwelcome, ?_⟩
    rw [ofPass_unexpected]
    exact filter_unexpectedSections hreg hp hfree hwelcome
  refine ⟨fun p hp => ?_, ?_, fun p hp hbound s hs => ?_, fun f hf => ?_⟩
  · by_cases hfree : Free (bindDocument accepts d elements) p.self
    · by_cases hwelcome : Welcome (bindDocument accepts d elements) p
      · refine ⟨.tolerated, ⟨hfree, hwelcome⟩, ?_⟩
        rintro (_ | _ | _) hfate
        · exact absurd hfree hfate.not_free
        · rfl
        · exact absurd hwelcome hfate.2.1
      · refine ⟨.reported, hreported p hp hfree hwelcome, ?_⟩
        rintro (_ | _ | _) hfate
        · exact absurd hfree hfate.not_free
        · exact absurd hfate.2 hwelcome
        · rfl
    · refine ⟨.bound, boundOnce hreg hfree, ?_⟩
      rintro (_ | _ | _) hfate
      · rfl
      · exact absurd hfate.1 hfree
      · exact absurd hfate.1 hfree
  · classical
    refine List.filter_congr fun s hs => ?_
    rw [Bool.eq_iff_iff, Bool.not_eq_true', isBound_eq_false_iff hreg hs]
    exact decide_eq_true_iff.symm
  · exact boundOnce hreg (bound_of_ancestor hreg hp hbound.not_free hs)
  · rw [ofPass_unexpected, mem_unexpectedSections hreg] at hf
    obtain ⟨p, hp, ⟨hfree, hwelcome⟩, rfl⟩ := hf
    exact ⟨p, hp, hreported p hp hfree hwelcome, rfl⟩

theorem accounted_sample : parseDocument sampleText "" = .ok sampleDocument ∧
    Accounted sampleDocument (bindDocument (HeadingSpec.accepts "") sampleDocument sampleElements)
      (structureFindings (HeadingSpec.accepts "")
        (bindDocument (HeadingSpec.accepts "") sampleDocument sampleElements) sampleDocument
        sampleElements) :=
  ⟨parseDocument_sample, accounted_structureFindings _ parseDocument_sample sampleElements⟩

end Outline

import Mathlib
import Outline.Proofs.Binding.Relaxed
import Outline.Proofs.Rule.Accept
import Outline.Proofs.Structure.Conforming

/-!
# Relaxed schemas

A schema that is the same as another one, but for elements that ask for less. **Relaxing a schema
never hurts** (`noWorse_of_relaxes`): in every document that was read, the same sections are bound
to the same elements, there are no more findings, and the relaxed schema accepts what the other one
accepts.

The findings are not the same ones. Where an element no longer has to occur, it does not claim a
section any more, and another element that was called missing may be called misplaced. So missing
and misplaced elements are counted together, by the nodes that have no section
(`length_missing_misplaced`).

* `Schema.Relaxes`: schemas that ask for less;
* `NoWorse`: what becomes of a document;
* `length_structureFindings_relaxed`: there are no more findings, pass after pass;
* `Rule.check_relaxed`: the other rules report the same.
-/

namespace Outline

/-- **A schema that asks for no more than another one**: its elements are relaxed, and what it asks
of documents as a whole is the same. -/
structure Schema.Relaxes (schema schema' : Schema) : Prop where
  elements : Looser schema.elements schema'.elements
  links : schema'.links = schema.links
  headings : schema'.headings = schema.headings
  frontMatter : schema'.frontMatter = schema.frontMatter

/-! ## Related lists -/

section

variable {α β : Type} {R : α → α → Prop} {l l' : List α}

theorem exists_mem_of_forall₂ (h : List.Forall₂ R l l') : ∀ a ∈ l, ∃ a' ∈ l', R a a' := by
  induction h with
  | nil => exact fun _ ha => absurd ha List.not_mem_nil
  | @cons a a' l l' hhead _ ih =>
    rw [List.forall_mem_cons]
    refine ⟨⟨a', List.mem_cons_self, hhead⟩, fun c hc => ?_⟩
    obtain ⟨c', hc', hR⟩ := ih c hc
    exact ⟨c', List.mem_cons_of_mem _ hc', hR⟩

theorem countP_le_of_forall₂ {p : α → Bool} (hp : ∀ a a', R a a' → p a' = true → p a = true)
    (h : List.Forall₂ R l l') : l'.countP p ≤ l.countP p := by
  induction h with
  | nil => exact Nat.le_refl _
  | @cons a a' l l' hhead _ ih =>
    rw [List.countP_cons, List.countP_cons]
    refine Nat.add_le_add ih ?_
    by_cases ha' : p a' = true
    · rw [if_pos ha', if_pos (hp _ _ hhead ha')]
    · rw [if_neg ha']
      exact Nat.zero_le _

theorem sum_map_le_of_forall₂ {f : α → Nat} (hf : ∀ a a', R a a' → f a' ≤ f a)
    (h : List.Forall₂ R l l') : (l'.map f).sum ≤ (l.map f).sum := by
  induction h with
  | nil => exact Nat.le_refl _
  | cons hhead _ ih =>
    rw [List.map_cons, List.map_cons, List.sum_cons, List.sum_cons]
    exact Nat.add_le_add (hf _ _ hhead) ih

theorem filterMap_sublist_of_forall₂ {f : α → Option β}
    (hf : ∀ a a', R a a' → f a' = none ∨ f a' = f a) (h : List.Forall₂ R l l') :
    (l'.filterMap f).Sublist (l.filterMap f) := by
  induction h with
  | nil => exact List.Sublist.refl _
  | @cons a a' l l' hhead _ ih =>
    rw [List.filterMap_cons, List.filterMap_cons]
    rcases hf _ _ hhead with hnone | hsame
    · rw [hnone]
      cases f a with
      | none => exact ih
      | some c => exact ih.cons c
    · rw [hsame]
      cases f a with
      | none => exact ih
      | some c => exact ih.cons_cons c

end

/-! ## Passes -/

section

variable {accepts : Accepts} {d : Document} {elements elements' : List Element}

/-- What the pass on first sections looks at: what was found below a heading, and what is
expected. -/
def FirstPair.key (pair : FirstPair) : Question := ⟨pair.expected.heading, pair.found⟩

theorem firstPair?_relaxed (parent : String) (sections : List Section)
    (h : Looser elements elements') :
    (firstPair? parent elements' sections).map FirstPair.key = none ∨
      (firstPair? parent elements' sections).map FirstPair.key =
        (firstPair? parent elements sections).map FirstPair.key := by
  cases h with
  | nil => exact Or.inl rfl
  | @cons e e' es es' here below rest =>
    cases sections with
    | nil => exact Or.inl rfl
    | cons s ss =>
      simp only [firstPair?]
      by_cases hrequired : e'.isRequired = true
      · rw [if_pos hrequired, if_pos (here.isRequired hrequired)]
        exact Or.inr (congrArg some (congrArg (Question.mk · s.heading) here.heading))
      · rw [if_neg hrequired]
        exact Or.inl rfl

/-- The pair of the scope below a node. -/
def Placed.firstPair? (p : Placed) : Option FirstPair :=
  p.node.boundTo?.bind fun s =>
    Outline.firstPair? s.heading.text p.node.element.children s.children

theorem firstPairs_eq (b : Binding) (d : Document) (elements : List Element) :
    firstPairs b d elements = (firstPair? documentRoot elements d.sections).toList ++
      b.boundNodes.filterMap Placed.firstPair? := by
  rw [firstPairs, Binding.boundNodes, List.filterMap_filter]
  refine congrArg _ (List.filterMap_congr fun p _ => ?_)
  rw [Node.isBound, Placed.firstPair?]
  cases p.node.boundTo? with
  | none => rfl
  | some s => rfl

/-- **Relaxed elements compare fewer first sections.** -/
theorem firstPairs_relaxed (hreg : Regular d.sections) (h : Looser elements elements') :
    ((firstPairs (bindDocument accepts d elements') d elements').map FirstPair.key).Sublist
      ((firstPairs (bindDocument accepts d elements) d elements).map FirstPair.key) := by
  rw [firstPairs_eq, firstPairs_eq, List.map_append, List.map_append, List.map_filterMap,
    List.map_filterMap, ← Option.toList_map, ← Option.toList_map]
  refine List.Sublist.append ?_ (filterMap_sublist_of_forall₂ ?_ (agrees_boundNodes hreg h))
  · rcases firstPair?_relaxed documentRoot d.sections h with hnone | hsame
    · rw [hnone]
      exact List.nil_sublist _
    · rw [hsame]
  · intro p p' hp
    have hnode := hp.node
    unfold Placed.firstPair?
    rw [hnode.boundTo]
    cases p.node.boundTo? with
    | none => exact Or.inl rfl
    | some s => exact firstPair?_relaxed _ _ hnode.below

theorem length_wrongFirsts (accepts : Accepts) (pairs : List FirstPair) :
    (wrongFirsts accepts pairs).length =
      (pairs.map FirstPair.key).countP fun q => !accepts q.spec q.heading := by
  rw [wrongFirsts, List.length_map, ← List.countP_eq_length_filter, List.countP_map]
  rfl

variable (accepts) in
theorem length_wrongFirsts_relaxed (hreg : Regular d.sections) (h : Looser elements elements') :
    (wrongFirsts accepts (firstPairs (bindDocument accepts d elements') d elements')).length ≤
      (wrongFirsts accepts (firstPairs (bindDocument accepts d elements) d elements)).length := by
  rw [length_wrongFirsts, length_wrongFirsts]
  exact (firstPairs_relaxed hreg h).countP_le

/-- A section that is welcome stays so. -/
theorem welcome_relaxed (hreg : Regular d.sections) (h : Looser elements elements')
    {p : PlacedSection} (hp : Welcome (bindDocument accepts d elements) p) :
    Welcome (bindDocument accepts d elements') p := by
  obtain ⟨s, hs, q, hq, hqs, hallow⟩ := hp
  have hbound : q.node.isBound = true := Option.isSome_iff_exists.2 ⟨s, hqs⟩
  obtain ⟨q', hq', hagrees⟩ :=
    exists_mem_of_forall₂ (agrees_boundNodes hreg h) q (List.mem_filter.2 ⟨hq, hbound⟩)
  exact ⟨s, hs, q', (List.mem_filter.1 hq').1, hagrees.node.boundTo.trans hqs,
    hagrees.node.element.additional hallow⟩

variable (accepts) in
theorem length_unexpectedSections_relaxed (hreg : Regular d.sections)
    (h : Looser elements elements') :
    (unexpectedSections (bindDocument accepts d elements') d).length ≤
      (unexpectedSections (bindDocument accepts d elements) d).length := by
  have hbound : ∀ s, (bindDocument accepts d elements').isBound s =
      (bindDocument accepts d elements).isBound s := fun s => by
    unfold Binding.isBound
    rw [bindDocument_bound_relaxed accepts d h]
  unfold unexpectedSections
  rw [List.length_map, List.length_map, ← List.countP_eq_length_filter,
    ← List.countP_eq_length_filter]
  refine List.countP_mono_left fun p hp hun => ?_
  rw [Bool.and_eq_true, Bool.not_eq_true', Bool.not_eq_true', hbound] at hun
  rw [Bool.and_eq_true, Bool.not_eq_true', Bool.not_eq_true']
  refine ⟨hun.1, Bool.eq_false_iff.2 fun hallow => ?_⟩
  have hwelcome := welcome_relaxed hreg h ((allowsAdditional_iff hreg hp).1 hallow)
  rw [(allowsAdditional_iff hreg hp).2 hwelcome] at hun
  exact Bool.noConfusion hun.2

/-- The nodes without a section whose ancestors all have one, counted scope by scope. -/
theorem length_unbound_eq_sum (hreg : Regular d.sections) :
    ((bindDocument accepts d elements).unboundNodes.filter fun p =>
        p.ancestors.all Node.isBound).length =
      (bindDocument accepts d elements).roots.countP (!·.isBound) +
        ((bindDocument accepts d elements).boundNodes.map fun p =>
          p.node.children.countP (!·.isBound)).sum := by
  have hverdicts : ∀ around,
      (((bindDocument accepts d elements).verdictsIn accepts d around).map
        (Verdict.placed around)).length =
      ((bindDocument accepts d elements).scopeIn d around).siblings.countP (!·.isBound) := by
    intro around
    rw [List.length_map, ← List.length_map (f := Verdict.node), Binding.verdictsIn,
      map_node_verdicts, ← List.countP_eq_length_filter]
  rw [(verdicts_cover hreg).length_eq, List.length_flatMap, funext hverdicts, Binding.places,
    List.map_cons, List.sum_cons, List.map_map]
  rfl

variable (accepts) in
/-- **Relaxed elements have no more nodes without a section whose ancestors all have one.** -/
theorem length_unbound_relaxed (hreg : Regular d.sections) (h : Looser elements elements') :
    ((bindDocument accepts d elements').unboundNodes.filter fun p =>
        p.ancestors.all Node.isBound).length ≤
      ((bindDocument accepts d elements).unboundNodes.filter fun p =>
        p.ancestors.all Node.isBound).length := by
  have hchildren : ∀ {elements : List Element},
      ∀ p ∈ (bindDocument accepts d elements).boundNodes,
        p.node.children = matchSiblings accepts p.node.element.children 0 p.node.sections 0 := by
    intro elements p hp
    have hmem := node_mem_allNodes (List.mem_filter.1 hp).1
    rw [bindDocument_roots accepts elements hreg] at hmem
    exact (children_eq_matchSiblings accepts elements hreg p.node hmem).2
  have hcount : ∀ {elements : List Element},
      (bindDocument accepts d elements).boundNodes.map (fun p =>
          p.node.children.countP (!·.isBound)) =
        (bindDocument accepts d elements).boundNodes.map fun p =>
          (matchSiblings accepts p.node.element.children 0 p.node.sections 0).countP (!·.isBound) :=
    List.map_congr_left fun p hp => by rw [hchildren p hp]
  rw [length_unbound_eq_sum hreg, length_unbound_eq_sum hreg, hcount, hcount,
    bindDocument_roots accepts elements hreg, bindDocument_roots accepts elements' hreg]
  refine Nat.add_le_add (countP_unbound_relaxed h)
    (sum_map_le_of_forall₂ (fun p p' hp => ?_) (agrees_boundNodes hreg h))
  have hsections : p'.node.sections = p.node.sections := by
    unfold Node.sections
    rw [hp.node.boundTo]
  rw [hsections]
  exact countP_unbound_relaxed hp.node.below

variable (accepts) in
theorem length_tooFewSections_relaxed (hreg : Regular d.sections) (h : Looser elements elements') :
    (tooFewSections (bindDocument accepts d elements')).length ≤
      (tooFewSections (bindDocument accepts d elements)).length := by
  unfold tooFewSections
  rw [List.length_map, List.length_map, ← List.countP_eq_length_filter,
    ← List.countP_eq_length_filter]
  refine countP_le_of_forall₂ (fun p p' hp hfew => ?_) (agrees_boundNodes hreg h)
  have hnode := hp.node
  rw [Bool.and_eq_true, Bool.and_eq_true, decide_eq_true_iff] at hfew ⊢
  rw [hnode.matchCount, hnode.matchIndex, hnode.element.isRepeatable] at hfew
  exact ⟨hfew.1, Nat.lt_of_lt_of_le hfew.2 (hnode.element.least_le hfew.1.1)⟩

/-- **Relaxed elements have no more findings.** -/
theorem length_structureFindings_relaxed (accepts : Accepts) (hreg : Regular d.sections)
    (h : Looser elements elements') :
    (structureFindings accepts (bindDocument accepts d elements') d elements').length ≤
      (structureFindings accepts (bindDocument accepts d elements) d elements).length := by
  have hfirsts := length_wrongFirsts_relaxed accepts hreg h
  have hunexpected := length_unexpectedSections_relaxed accepts hreg h
  have hunbound := length_unbound_relaxed accepts hreg h
  -- What is no longer missing may make something else misplaced: only the sum of the two is kept.
  rw [← length_missing_misplaced hreg, ← length_missing_misplaced hreg, List.length_append,
    List.length_append] at hunbound
  have hfew := length_tooFewSections_relaxed accepts hreg h
  simp only [structureFindings, List.length_append]
  omega

/-! ## Questions -/

/-- **Relaxed elements ask nothing new of a document that has no findings.** -/
theorem structureQuestions_relaxed (hreg : Regular d.sections) (h : Looser elements elements')
    (hnone : structureFindings accepts (bindDocument accepts d elements') d elements' = []) :
    ∀ q ∈ structureQuestions accepts (bindDocument accepts d elements') d elements',
      q ∈ structureQuestions accepts (bindDocument accepts d elements) d elements := by
  simp only [structureFindings, List.append_eq_nil_iff] at hnone
  obtain ⟨⟨⟨-, hmissing⟩, hmisplaced⟩, -⟩ := hnone
  have hbound := (missing_misplaced_eq_nil_iff accepts elements' hreg).1 ⟨hmissing, hmisplaced⟩
  -- Every node has a section, so no other section is tried: only first sections are asked about.
  intro q hq
  rw [structureQuestions, asked_searchMisplaced hbound, List.reverse_nil, List.nil_append] at hq
  exact List.mem_append_right _ ((firstPairs_relaxed hreg h).subset hq)

end

theorem Answerable.mono {path : String} {questions questions' : List Question}
    (hsub : ∀ q ∈ questions', q ∈ questions) (h : Answerable path questions) :
    Answerable path questions' :=
  fun q hq => h q (hsub q hq)

/-! ## Other rules -/

section

variable {p p' : Placed} (h : p.Agrees p')

include h

theorem Placed.Agrees.elements_eq : p'.node.elements = p.node.elements := by
  unfold Node.elements
  rw [h.node.boundTo]

theorem Placed.Agrees.content_eq : p'.node.content = p.node.content := by
  unfold Node.content
  rw [h.node.boundTo]

theorem Placed.Agrees.headingText_eq : p'.node.headingText = p.node.headingText := by
  unfold Node.headingText
  rw [h.node.boundTo, h.node.element.heading]

theorem Placed.Agrees.location_eq : p'.location = p.location := by
  have hnearest : p'.nearestHeading? = p.nearestHeading? := by
    have hsections := map_eq_of_forall₂ (fun _ _ hn => Node.Agrees.boundTo hn) h
    unfold Placed.nearestHeading?
    have hfind : ∀ ns : List Node, ns.findSome? (fun n => n.boundTo?.map (·.heading)) =
        (ns.map Node.boundTo?).findSome? fun s => s.map (·.heading) :=
      fun ns => by rw [List.findSome?_map]; rfl
    rw [hfind, hfind, hsections]
  unfold Placed.location
  rw [hnearest]

end

section

variable {c c' : Context}

theorem onBoundNodes_relaxed {check : Placed → Run (List Violation)}
    (h : List.Forall₂ Placed.Agrees c.binding.boundNodes c'.binding.boundNodes)
    (hcheck : ∀ p p', p.Agrees p' → check p' = check p) :
    onBoundNodes c' check = onBoundNodes c check := by
  have hmap : c'.binding.boundNodes.mapM check = c.binding.boundNodes.mapM check := by
    generalize c.binding.boundNodes = l at h ⊢
    generalize c'.binding.boundNodes = l' at h ⊢
    induction h with
    | nil => rfl
    | cons hhead _ ih => rw [List.mapM_cons, List.mapM_cons, hcheck _ _ hhead, ih]
  unfold onBoundNodes
  rw [hmap]

theorem onRequirements_relaxed {α : Type} {requirements : SectionRules → List α}
    {check : Placed → α → Except Fault (List Violation)}
    (h : List.Forall₂ Placed.Agrees c.binding.boundNodes c'.binding.boundNodes)
    (hcheck : ∀ p p', p.Agrees p' → check p' = check p) :
    onRequirements c' requirements check = onRequirements c requirements check :=
  onBoundNodes_relaxed h fun p p' hp => by rw [hcheck p p' hp, hp.node.element.rules]

/-- **No other rule tells the two schemas apart.** -/
theorem Rule.check_relaxed {d : Document} {schema schema' : Schema} (hreg : Regular d.sections)
    (h : schema.Relaxes schema') (around : Surroundings) (root : String) {r : Rule}
    (hr : r ≠ .sections) :
    r.check around (contextOf d schema' root {}) = r.check around (contextOf d schema root {}) := by
  have hnodes : List.Forall₂ Placed.Agrees (contextOf d schema root {}).binding.boundNodes
      (contextOf d schema' root {}).binding.boundNodes := agrees_boundNodes hreg h.elements
  cases r with
  | sections => exact absurd rfl hr
  | requiredText =>
    exact onBoundNodes_relaxed hnodes fun p p' hp => by
      rw [hp.node.element.rules, hp.content_eq, hp.headingText_eq, hp.location_eq]
  | forbiddenText =>
    exact onBoundNodes_relaxed hnodes fun p p' hp => by
      rw [hp.node.element.rules, hp.content_eq, hp.headingText_eq, hp.location_eq]
  | codeBlock =>
    exact onRequirements_relaxed hnodes fun p p' hp => funext fun r => by
      simp only [checkCodeBlocks, thingMessages, sectionName, atHeading, hp.elements_eq,
        hp.headingText_eq, hp.location_eq]
  | image =>
    exact onRequirements_relaxed hnodes fun p p' hp => funext fun r => by
      simp only [checkImages, thingMessages, sectionName, atHeading, hp.elements_eq,
        hp.headingText_eq, hp.location_eq]
  | table =>
    refine onRequirements_relaxed hnodes fun p p' hp => funext fun r => ?_
    have htable : checkTable p' r = checkTable p r := funext fun t => by
      simp only [checkTable, hp.headingText_eq]
    simp only [checkTables, thingMessages, sectionName, atHeading, hp.elements_eq,
      hp.headingText_eq, hp.location_eq, htable]
  | list =>
    refine onRequirements_relaxed hnodes fun p p' hp => funext fun r => ?_
    have hitems : checkItems p' r = checkItems p r := funext fun l => by
      simp only [checkItems, hp.headingText_eq]
    simp only [checkLists, thingMessages, sectionName, atHeading, hp.elements_eq,
      hp.headingText_eq, hp.location_eq, hitems]
  | wordCount =>
    simp only [Rule.check, wordCountRule]
    refine onRequirements_relaxed hnodes fun p p' hp => funext fun bounds => ?_
    simp only [checkWordCount, sectionName, atHeading, hp.content_eq, hp.headingText_eq,
        hp.location_eq]
  | heading => simp only [Rule.check, headingRule, contextOf, h.headings]
  | link => simp only [Rule.check, linkRule, contextOf, h.links]; rfl
  | frontMatter => simp only [Rule.check, frontMatterRule, contextOf, h.frontMatter]

end

/-! ## Schemas -/

/-- **What a schema that asks for less does to a document**: the same sections are bound to the same
elements, in the same order, and the same ones to none; the structure has no more findings, so that
no more violations of it are reported; and the document is accepted if it was accepted before. -/
structure NoWorse (d : Document) (schema schema' : Schema) : Prop where
  trace : (bindingOf d schema').trace = (bindingOf d schema).trace
  unmatched : (bindingOf d schema').unmatched d = (bindingOf d schema).unmatched d
  findings : (structureFindings (HeadingSpec.accepts d.path) (bindingOf d schema') d
      schema'.elements).length ≤
    (structureFindings (HeadingSpec.accepts d.path) (bindingOf d schema) d schema.elements).length
  reported : ∀ (root : String) (vs vs' : List Violation),
    (Run.journal do structureRule (← openContext d schema root)).1 = .ok vs →
      (Run.journal do structureRule (← openContext d schema' root)).1 = .ok vs' →
        vs'.length ≤ vs.length
  accepted : ∀ (around : Surroundings) (root : String),
    (evaluate around schema root d).journal.1 = .ok [] →
      (evaluate around schema' root d).journal.1 = .ok []

/-- **Relaxing a schema never hurts.** -/
theorem noWorse_of_relaxes {text path : String} {d : Document} (h : parseDocument text path = .ok d)
    {schema schema' : Schema} (hrelax : schema.Relaxes schema') : NoWorse d schema schema' := by
  have hreg := regular_of_parseDocument h
  have hlength :=
    length_structureFindings_relaxed (HeadingSpec.accepts d.path) hreg hrelax.elements
  refine ⟨trace_relaxed hreg hrelax.elements, unmatched_relaxed _ d hrelax.elements, hlength, ?_,
    fun around root haccepted => ?_⟩
  · intro root vs vs' hvs hvs'
    obtain ⟨-, -, hvs⟩ := structureRun_ok_iff.1 hvs
    obtain ⟨-, -, hvs'⟩ := structureRun_ok_iff.1 hvs'
    rw [length_of_mapM_eq_ok hvs, length_of_mapM_eq_ok hvs']
    exact hlength
  · obtain ⟨hasked, hquestions, hfindings, hothers⟩ := (evaluate_eq_nil_iff around).1 haccepted
    have hnone := List.length_eq_zero_iff.1 (Nat.le_zero.1 (hfindings ▸ hlength))
    refine (evaluate_eq_nil_iff around).2 ⟨?_, ?_, hnone, fun r hr => ?_⟩
    · rwa [bindingOf, bindDocument_asked_relaxed _ d hrelax.elements]
    · exact hquestions.mono (structureQuestions_relaxed hreg hrelax.elements hnone)
    · rw [Rule.check_relaxed hreg hrelax around root hr]
      exact hothers r hr

/-- The schema of the sample, with additional sections below `A` and the last `B` optional. -/
def relaxedSampleSchema : Schema :=
  { elements :=
      [{ heading := .literal "# A"
         allowAdditional := true
         children :=
          [{ heading := .literal "## B" }, { heading := .literal "## C" },
            { heading := .literal "## B", optional := true }] }] }

theorem relaxes_sampleSchema : sampleSchema.Relaxes relaxedSampleSchema where
  elements :=
    .cons ⟨rfl, rfl, rfl, rfl, id, fun _ => rfl, .none⟩
      (.cons ⟨rfl, rfl, rfl, rfl, id, id, .none⟩ .nil
        (.cons ⟨rfl, rfl, rfl, rfl, id, id, .none⟩ .nil
          (.cons ⟨rfl, rfl, rfl, rfl, fun _ => rfl, id, .none⟩ .nil .nil))) .nil
  links := rfl
  headings := rfl
  frontMatter := rfl

theorem noWorse_sample : parseDocument sampleText "" = .ok sampleDocument ∧
    sampleSchema.Relaxes relaxedSampleSchema ∧
      NoWorse sampleDocument sampleSchema relaxedSampleSchema :=
  ⟨parseDocument_sample, relaxes_sampleSchema,
    noWorse_of_relaxes parseDocument_sample relaxes_sampleSchema⟩

end Outline

import Outline.Proofs.Binding.Questions
import Outline.Proofs.Rule.Literal
import Outline.Proofs.Structure.Relaxed
import Outline.Proofs.Structure.Scopes

/-!
# Additional sections

A section that fits no element of a schema is put among the subsections of one that is bound to an
element with additional sections. **The longer document is accepted as the shorter one was, unless
the new section comes first where the first element has to occur** (`accepted_inserted_iff`): first
sections are compared with what is expected, whether additional ones are allowed or not.

* `mirrors_nodes`: the nodes of the two documents;
* `inOrder_inserted_iff`: their scopes;
* `answerable_asked_inserted`, `answerable_questions_inserted`: what is asked about them.
-/

namespace Outline

/-! ## Headings of the same key -/

/-- A specification looks at the level and the text of a heading only. -/
theorem judge_eq_of_key {path : String} {h h' : Heading} (he : h.key = h'.key)
    (spec : HeadingSpec) : spec.judge path h = spec.judge path h' := by
  obtain ⟨hlevel, htext⟩ := Prod.mk.inj he
  have hwritten : h.written = h'.written := by rw [Heading.written, Heading.written, hlevel, htext]
  cases spec with
  | literal text => rw [HeadingSpec.judge, HeadingSpec.judge, hwritten]
  | pattern text => rw [HeadingSpec.judge, HeadingSpec.judge, hwritten]
  | expr source e => rw [HeadingSpec.judge, HeadingSpec.judge, hlevel, htext]

theorem accepts_eq_of_key {path : String} {h h' : Heading} (he : h.key = h'.key)
    (spec : HeadingSpec) : spec.accepts path h = spec.accepts path h' := by
  rw [HeadingSpec.accepts, HeadingSpec.accepts, judge_eq_of_key he]

/-- The heading of the element is found not to accept that of the section. -/
def Element.Refuses (path : String) (x : Section) (e : Element) : Prop :=
  e.heading.judge path x.heading = .ok false

theorem Element.Refuses.judge_eq {path : String} {x : Section} {e : Element}
    (h : e.Refuses path x) {t : Section} (ht : SameKey x t) :
    e.heading.judge path t.heading = .ok false :=
  (judge_eq_of_key ht e.heading).trans h

theorem Element.Refuses.ignores {path : String} {x : Section} {e : Element}
    (h : e.Refuses path x) : e.Ignores (HeadingSpec.accepts path) (SameKey x) := by
  intro t ht
  rw [HeadingSpec.accepts, h.judge_eq ht]

theorem sound_mirrors (path : String) (line place : Nat) (x : Section) :
    Sound (HeadingSpec.accepts path) (SameKey x) (Mirrors line place x) :=
  fun _ _ h => ⟨fun spec => accepts_eq_of_key h.key spec, h.padded⟩

/-! ## First sections -/

theorem firstFits_iff_of_head {path : String} {elements : List Element}
    {sections sections' : List Section}
    (h : sections.head?.map (·.heading.key) = sections'.head?.map (·.heading.key)) :
    FirstFits (HeadingSpec.accepts path) elements sections ↔
      FirstFits (HeadingSpec.accepts path) elements sections' := by
  unfold FirstFits
  cases sections with
  | nil =>
    cases sections' with
    | nil => rfl
    | cons t ts => cases h
  | cons s ss =>
    cases sections' with
    | nil => cases h
    | cons t ts =>
      have hkey : s.heading.key = t.heading.key := Option.some.inj h
      simp only [List.head?_cons, Option.mem_some_iff, forall_eq', accepts_eq_of_key hkey]

/-- The first subsection of the section that got the new one fits as before, unless the new one
comes first where the first element has to occur. -/
theorem firstFits_host_iff {path : String} {elements : List Element} {place : Nat}
    {x s t : Section} (h : Mirrors s.startLine place x s t) (hplace : place ≤ s.children.length)
    (hrefuses : EachElement (Element.Refuses path x) elements)
    (hfits : FirstFits (HeadingSpec.accepts path) elements s.children) :
    FirstFits (HeadingSpec.accepts path) elements t.children ↔
      (place = 0 → ∀ e ∈ elements.head?, e.isRequired = false) := by
  cases place with
  | succ n =>
    have hhead := h.head_succ rfl hplace
    simp [← firstFits_iff_of_head hhead, hfits]
  | zero =>
    obtain ⟨u, hu, hkey⟩ := Option.map_eq_some_iff.1 (h.head_zero rfl)
    unfold FirstFits
    rw [hu]
    cases hrefuses with
    | nil => simp
    | cons here =>
      have hnot := here.ignores u hkey
      simp [hnot]

/-! ## Nodes -/

section

variable {d d' : Document} {s x : Section} {place : Nat} {elements : List Element}

theorem mirrored_roots (hd : Regular d.sections) (h : Inserted d s place x d')
    (hrefuses : EachElement (Element.Refuses d.path x) elements) :
    Mirrored (Mirrors s.startLine place x)
      (bindDocument (HeadingSpec.accepts d.path) d elements).roots
      (bindDocument (HeadingSpec.accepts d.path) d' elements).roots := by
  have hpadded := h.sections.padded
  rw [← sectionsAfter_zero hd, ← sectionsAfter_zero h.regular] at hpadded
  rw [bindDocument_roots _ elements hd, bindDocument_roots _ elements h.regular]
  exact mirrored_matchSiblings (sound_mirrors d.path s.startLine place x)
    (hrefuses.imp fun _ he => he.ignores) hd h.regular hpadded

/-- **The nodes of the longer document are those of the shorter one.** -/
theorem mirrors_nodes (hd : Regular d.sections) (h : Inserted d s place x d')
    (hrefuses : EachElement (Element.Refuses d.path x) elements) :
    List.Forall₂ (Placed.Mirrors (Mirrors s.startLine place x))
      (bindDocument (HeadingSpec.accepts d.path) d elements).nodes
      (bindDocument (HeadingSpec.accepts d.path) d' elements).nodes :=
  (mirrored_roots hd h hrefuses).walk rfl

end

namespace Placed.Mirrors

variable {R : Section → Section → Prop} {p p' : Placed}

theorem isBound_eq (h : p.Mirrors R p') : p'.node.isBound = p.node.isBound := by
  have hboundTo := h.boundTo
  unfold Node.isBound
  generalize p.node.boundTo? = s at hboundTo ⊢
  generalize p'.node.boundTo? = t at hboundTo ⊢
  cases hboundTo with
  | none => rfl
  | some => rfl

theorem open_iff (h : p.Mirrors R p') : p'.Open ↔ p.Open := by
  have helements : (p'.node :: p'.ancestors).map Node.element =
      (p.node :: p.ancestors).map Node.element := by
    rw [List.map_cons, List.map_cons, h.element, h.ancestors]
  have hopen : ∀ r : Placed, r.Open ↔
      ∃ e ∈ (r.node :: r.ancestors).map Node.element, e.allowAdditional = true := fun r => by
    simp [Placed.Open]
  rw [hopen, hopen, helements]

end Placed.Mirrors

/-! ## Scopes -/

section

variable {d d' : Document} {s x : Section} {place : Nat} {elements : List Element}

/-- Where a node is not bound to the section that got the new one, its scope stays in order. -/
theorem scope_elsewhere (h : Inserted d s place x d') {p p' : Placed}
    (hp' : p' ∈ (bindDocument (HeadingSpec.accepts d.path) d' elements).nodes)
    (hmirrors : p.Mirrors (Mirrors s.startLine place x) p')
    (helsewhere : ∀ u, p.node.boundTo? = some u → u.startLine ≠ s.startLine) :
    (Covers p.node.children p.node.sections → Covers p'.node.children p'.node.sections) ∧
      p.node.sections.head?.map (·.heading.key) = p'.node.sections.head?.map (·.heading.key) := by
  obtain ⟨-, hsub⟩ := children_sublist h.regular hp'
  have hlength := hmirrors.children.length_sections
  have hboth : p.node.sections.length = p'.node.sections.length ∧
      p.node.sections.head?.map (·.heading.key) = p'.node.sections.head?.map (·.heading.key) := by
    have hboundTo := hmirrors.boundTo
    unfold Node.sections
    generalize p.node.boundTo? = u at hboundTo helsewhere ⊢
    generalize p'.node.boundTo? = v at hboundTo ⊢
    cases hboundTo with
    | none => exact ⟨rfl, rfl⟩
    | some huv => exact huv.children_eq (helsewhere _ rfl)
  refine ⟨fun hcovers => hsub.eq_of_length ?_, hboth.2⟩
  rw [hlength, hcovers, hboth.1]

variable {q : Placed}

/-- The scopes of the longer document are in order as those of the shorter one are, unless the new
section comes first where the first element has to occur. -/
theorem inOrder_inserted_iff (hd : Regular d.sections) (h : Inserted d s place x d')
    (hrefuses : EachElement (Element.Refuses d.path x) elements)
    (hq : q ∈ (bindDocument (HeadingSpec.accepts d.path) d elements).nodes)
    (hqs : q.node.boundTo? = some s) (hallow : q.node.element.allowAdditional = true)
    (hin : InOrder (HeadingSpec.accepts d.path) d elements
      (bindDocument (HeadingSpec.accepts d.path) d elements)) :
    InOrder (HeadingSpec.accepts d.path) d' elements
        (bindDocument (HeadingSpec.accepts d.path) d' elements) ↔
      (place = 0 → ∀ e ∈ q.node.element.children.head?, e.isRequired = false) := by
  have hnodes := mirrors_nodes hd h hrefuses
  -- a node bound to a section that begins at the line is the node of `s`
  have hhost : ∀ p ∈ (bindDocument (HeadingSpec.accepts d.path) d elements).nodes, p ≠ q →
      ∀ u, p.node.boundTo? = some u → u.startLine ≠ s.startLine := by
    intro p hp hpq u hpu hline
    have hu := mem_allSections_of_mem_nodes _ hd hp hpu
    have hs := mem_allSections_of_mem_nodes _ hd hq hqs
    obtain rfl := hd.eq_of_startLine hu hs hline
    exact hpq (eq_of_boundTo hd hp hq hpu hqs)
  have hchildren : EachElement (Element.Refuses d.path x) q.node.element.children := by
    have hnode := node_mem_allNodes hq
    rw [bindDocument_roots _ elements hd] at hnode
    exact (hrefuses.of_mem_allNodes q.node hnode).2
  have hfirst : ∀ q', q.Mirrors (Mirrors s.startLine place x) q' →
      (FirstFits (HeadingSpec.accepts d.path) q'.node.element.children q'.node.sections ↔
        (place = 0 → ∀ e ∈ q.node.element.children.head?, e.isRequired = false)) := by
    intro q' hq'
    have hfits := hin.first q hq
    have hboundTo := hq'.boundTo
    rw [hq'.element]
    unfold Node.sections at hfits ⊢
    rw [hqs] at hfits hboundTo
    generalize q'.node.boundTo? = t at hboundTo ⊢
    cases hboundTo with
    | some hst => exact firstFits_host_iff hst h.place_le hchildren hfits
  constructor
  · intro hin'
    obtain ⟨q', hq', hmirrors⟩ := exists_mem_of_forall₂ hnodes q hq
    exact (hfirst q' hmirrors).1 (hin'.first q' hq')
  · intro hplace
    have heach := exists_of_forall₂ hnodes
    have hlength := h.sections.length_eq
    rw [length_insertIntoAll] at hlength
    have hhead := h.sections.head_key
    rw [head_insertIntoAll] at hhead
    refine ⟨fun p' hp' => ?_, fun p' hp' => ?_, (firstFits_iff_of_head hhead).1 hin.firstTop,
      fun p' hp' => ?_, ?_, fun p' hp' => ?_⟩
    · obtain ⟨p, hp, hmirrors⟩ := heach p' hp'
      rw [hmirrors.isBound_eq]
      exact hin.bound p hp
    · obtain ⟨p, hp, hmirrors⟩ := heach p' hp'
      rw [hmirrors.element, hmirrors.matchIndex, hmirrors.matchCount]
      exact hin.enough p hp
    · obtain ⟨p, hp, hmirrors⟩ := heach p' hp'
      by_cases hpq : p = q
      · exact (hfirst p' (hpq ▸ hmirrors)).2 hplace
      · have hsame := (scope_elsewhere h hp' hmirrors (hhost p hp hpq)).2
        rw [hmirrors.element]
        exact (firstFits_iff_of_head hsame).1 (hin.first p hp)
    · refine (roots_sublist h.regular).eq_of_length ?_
      rw [(mirrored_roots hd h hrefuses).length_sections, hin.coveredTop, hlength]
    · obtain ⟨p, hp, hmirrors⟩ := heach p' hp'
      rw [hmirrors.open_iff]
      by_cases hpq : p = q
      · exact Or.inl ⟨p.node, List.mem_cons_self, hpq ▸ hallow⟩
      · exact (hin.covered p hp).imp_right (scope_elsewhere h hp' hmirrors (hhost p hp hpq)).1

/-! ## Questions -/

/-- **All that the binding asks about the longer document can be answered**, if it can be about the
shorter one. -/
theorem answerable_asked_inserted (hd : Regular d.sections) (h : Inserted d s place x d')
    (hrefuses : EachElement (Element.Refuses d.path x) elements)
    (hasked : Answerable d.path (bindDocument (HeadingSpec.accepts d.path) d elements).asked) :
    Answerable d.path (bindDocument (HeadingSpec.accepts d.path) d' elements).asked := by
  have hpadded := h.sections.padded
  rw [← sectionsAfter_zero hd, ← sectionsAfter_zero h.regular] at hpadded
  have hsound := sound_mirrors d.path s.startLine place x
  intro q' hq'
  rw [mem_asked_bindDocument h.regular] at hq'
  rcases Asked.of_padded hsound hrefuses (fun _ he => he.ignores) hd h.regular hpadded q' hq' with
    ⟨e, t, he, ht, rfl⟩ | ⟨q, u, v, hq, huv, rfl, hv⟩
  · exact ⟨false, he.judge_eq ht⟩
  · obtain ⟨answer, hanswer⟩ := hasked _ ((mem_asked_bindDocument hd elements _).2 hq)
    refine ⟨answer, ?_⟩
    rw [hv, ← judge_eq_of_key huv.key]
    exact hanswer

/-- Where every node has a section, the rule asks about first sections only. -/
theorem answerable_questions_iff {accepts : Accepts} {b : Binding} {path : String}
    (hbound : ∀ p ∈ b.nodes, p.node.isBound = true) :
    Answerable path (structureQuestions accepts b d elements) ↔
      (∀ pair, firstPair? documentRoot elements d.sections = some pair →
        ∃ answer, pair.expected.heading.judge path pair.found = .ok answer) ∧
      ∀ p ∈ b.nodes, ∀ u, p.node.boundTo? = some u →
        ∀ pair, firstPair? u.heading.text p.node.element.children u.children = some pair →
          ∃ answer, pair.expected.heading.judge path pair.found = .ok answer := by
  have hall : ∀ n ∈ allNodes b.roots, n.isBound = true := List.forall_mem_map.2 hbound
  rw [structureQuestions, asked_searchMisplaced hall, List.reverse_nil, List.nil_append,
    Answerable, List.forall_mem_map, firstPairs, List.forall_mem_append]
  simp only [Option.mem_toList, List.mem_filterMap, Option.bind_eq_some_iff]
  refine and_congr_right fun _ => ⟨fun hpairs p hp u hu pair hpair => ?_, ?_⟩
  · exact hpairs pair ⟨p, hp, u, hu, hpair⟩
  · rintro hpairs pair ⟨p, hp, u, hu, hpair⟩
    exact hpairs p hp u hu pair hpair

/-- The first section of a scope with the new section can be asked about. -/
theorem answerable_first {R : Section → Section → Prop} {path parent parent' : String}
    (hkey : ∀ u v, R u v → u.heading.key = v.heading.key) {elements : List Element}
    {sections sections' : List Section} (h : Padded (SameKey x) R sections sections')
    (hrefuses : EachElement (Element.Refuses path x) elements)
    (hanswer : ∀ pair, firstPair? parent elements sections = some pair →
      ∃ answer, pair.expected.heading.judge path pair.found = .ok answer) :
    ∀ pair, firstPair? parent' elements sections' = some pair →
      ∃ answer, pair.expected.heading.judge path pair.found = .ok answer := by
  intro pair hpair
  cases hrefuses with
  | nil => cases hpair
  | @cons e es here =>
    cases h with
    | nil => cases hpair
    | @both u v us vs huv =>
      simp only [firstPair?] at hpair hanswer
      split_ifs at hpair hanswer with hrequired
      obtain rfl := Option.some.inj hpair
      obtain ⟨answer, ha⟩ := hanswer _ rfl
      exact ⟨answer, (judge_eq_of_key (hkey u v huv) e.heading).symm.trans ha⟩
    | @extra t us vs ht =>
      simp only [firstPair?] at hpair
      split_ifs at hpair with hrequired
      obtain rfl := Option.some.inj hpair
      exact ⟨false, here.judge_eq ht⟩

/-- **All that the rule asks about the longer document can be answered**, if it can be about the
shorter one, where every node has a section. -/
theorem answerable_questions_inserted (hd : Regular d.sections) (h : Inserted d s place x d')
    (hrefuses : EachElement (Element.Refuses d.path x) elements)
    (hbound : ∀ p ∈ (bindDocument (HeadingSpec.accepts d.path) d elements).nodes,
      p.node.isBound = true)
    (hasked : Answerable d.path (structureQuestions (HeadingSpec.accepts d.path)
      (bindDocument (HeadingSpec.accepts d.path) d elements) d elements)) :
    Answerable d.path (structureQuestions (HeadingSpec.accepts d.path)
      (bindDocument (HeadingSpec.accepts d.path) d' elements) d' elements) := by
  have heach := exists_of_forall₂ (mirrors_nodes hd h hrefuses)
  have hbound' : ∀ p' ∈ (bindDocument (HeadingSpec.accepts d.path) d' elements).nodes,
      p'.node.isBound = true := by
    intro p' hp'
    obtain ⟨p, hp, hmirrors⟩ := heach p' hp'
    rw [hmirrors.isBound_eq]
    exact hbound p hp
  have hkey : ∀ u v, Mirrors s.startLine place x u v → u.heading.key = v.heading.key :=
    fun _ _ huv => huv.key
  rw [answerable_questions_iff hbound] at hasked
  rw [answerable_questions_iff hbound']
  refine ⟨answerable_first hkey h.sections.padded hrefuses hasked.1, fun p' hp' v hv => ?_⟩
  obtain ⟨p, hp, hmirrors⟩ := heach p' hp'
  have hnode := node_mem_allNodes hp
  rw [bindDocument_roots _ elements hd] at hnode
  have hboundTo := hmirrors.boundTo
  rw [hv] at hboundTo
  have hanswer := hasked.2 p hp
  generalize p.node.boundTo? = u at hboundTo hanswer
  rw [hmirrors.element]
  cases hboundTo with
  | some huv =>
    exact answerable_first hkey huv.padded (hrefuses.of_mem_allNodes p.node hnode).2
      (hanswer _ rfl)

end

/-! ## Documents -/

/-- **A document with one more section is accepted as the shorter one was**, where the new section
fits no element and lies in one with additional sections, unless it comes first there and the first
element has to occur. -/
theorem accepted_inserted_iff {d d' : Document} {schema : Schema} {root : String} {q : Placed}
    {s x : Section} {place : Nat} (hd : Regular d.sections)
    (haccepted : (Run.journal do structureRule (← openContext d schema root)).1 = .ok [])
    (hq : q ∈ (bindingOf d schema).nodes) (hqs : q.node.boundTo? = some s)
    (hallow : q.node.element.allowAdditional = true)
    (hrefuses : EachElement (Element.Refuses d.path x) schema.elements)
    (h : Inserted d s place x d') :
    (Run.journal do structureRule (← openContext d' schema root)).1 = .ok [] ↔
      (place = 0 → ∀ e ∈ q.node.element.children.head?, e.isRequired = false) := by
  obtain ⟨hasked, hquestions, hfindings⟩ := structureRun_ok_iff.1 haccepted
  have hin := (structureFindings_eq_nil_iff_inOrder (HeadingSpec.accepts d.path) hd).1
    (mapM_eq_ok_nil hfindings)
  have hasked' := answerable_asked_inserted hd h hrefuses hasked
  have hquestions' := answerable_questions_inserted hd h hrefuses hin.bound hquestions
  rw [← inOrder_inserted_iff hd h hrefuses hq hqs hallow hin,
    ← structureFindings_eq_nil_iff_inOrder (HeadingSpec.accepts d.path) h.regular,
    structureRun_ok_iff, bindingOf, h.path]
  constructor
  · rintro ⟨-, -, hfindings'⟩
    exact mapM_eq_ok_nil hfindings'
  · intro hnone
    exact ⟨hasked', hquestions', hnone ▸ rfl⟩

/-! ## Samples -/

/-- The sample with one more heading in front of the first `B`. -/
def longerText : String := "# A\n\n## X\n\n## B\n\n## C\n\n## B\n"

/-- The document of these headings. -/
def longerDocument : Document :=
  { path := ""
    text := longerText
    frontMatter := none
    preamble := ⟨1, 10, "", {}⟩
    sections := [sampleSection 1 "A" 1 10 [sampleSection 2 "X" 3 4 [], sampleSection 2 "B" 5 6 [],
      sampleSection 2 "C" 7 8 [], sampleSection 2 "B" 9 10 []]] }

theorem parseDocument_longer : parseDocument longerText "" = .ok longerDocument := by
  have hsplit : splitFrontMatter longerText = .ok (none, longerText) := by cbv
  have hlines : cutOn '\n' longerText.toList =
      ["# A".toList, [], "## X".toList, [], "## B".toList, [], "## C".toList, [], "## B".toList,
        []] := by cbv
  have hevents : Markdown.documentEvents longerText.toList =
      [.heading 1 0 1 [.text ['A']], .heading 2 2 3 [.text ['X']], .heading 2 4 5 [.text ['B']],
        .heading 2 6 7 [.text ['C']], .heading 2 8 9 [.text ['B']]] := by cbv
  unfold parseDocument
  rw [hsplit]
  dsimp only [bind, Except.bind]
  rw [hlines, hevents]
  rfl

/-- `A` with `B` below it, which may be optional, and additional sections. -/
def openSchema (optional : Bool) : Schema :=
  { elements :=
      [{ heading := .literal "# A"
         allowAdditional := true
         children := [{ heading := .literal "## B", optional := optional }] }] }

/-- The section of `A` in the sample, and the one that the longer document has in it besides. -/
def openSection : Section :=
  sampleSection 1 "A" 1 8 [sampleSection 2 "B" 3 4 [], sampleSection 2 "C" 5 6 [],
    sampleSection 2 "B" 7 8 []]

def extraSection : Section := sampleSection 2 "X" 3 4 []

theorem inserted_longer : Inserted sampleDocument openSection 0 extraSection longerDocument where
  path := rfl
  regular := regular_of_parseDocument parseDocument_longer
  place_le := Nat.zero_le _
  childless := rfl
  sections :=
    .cons rfl (.cons rfl .nil (.cons rfl .nil (.cons rfl .nil (.cons rfl .nil .nil)))) .nil

theorem refuses_extra (optional : Bool) :
    EachElement (Element.Refuses "" extraSection) (openSchema optional).elements :=
  .cons rfl (.cons rfl .nil .nil) .nil

theorem accepted_openSchema (optional : Bool) :
    (Run.journal do structureRule (← openContext sampleDocument (openSchema optional) "")).1 =
      .ok [] := by
  have hliteral : EachElement Element.IsLiteral (openSchema optional).elements :=
    .cons ⟨_, rfl⟩ (.cons ⟨_, rfl⟩ .nil .nil) .nil
  refine hliteral.accepted (regular_of_parseDocument parseDocument_sample) "" ?_
  cases optional <;> rfl

/-- The node of `A`. -/
def openNode (optional : Bool) : Placed :=
  ⟨(bindingOf sampleDocument (openSchema optional)).roots.headD default, []⟩

theorem openNode_mem (optional : Bool) :
    openNode optional ∈ (bindingOf sampleDocument (openSchema optional)).nodes :=
  mem_walkNodes_of_mem List.mem_cons_self []

theorem openNode_open (optional : Bool) : (openNode optional).node.boundTo? = some openSection ∧
    (openNode optional).node.element.allowAdditional = true :=
  ⟨rfl, rfl⟩

/-- Where `B` may be missing, the new section may come first. -/
theorem accepted_inserted_optional :
    openNode true ∈ (bindingOf sampleDocument (openSchema true)).nodes ∧
      EachElement (Element.Refuses "" extraSection) (openSchema true).elements ∧
      Inserted sampleDocument openSection 0 extraSection longerDocument ∧
      (Run.journal do structureRule (← openContext sampleDocument (openSchema true) "")).1 =
        .ok [] ∧
      (Run.journal do structureRule (← openContext longerDocument (openSchema true) "")).1 =
        .ok [] := by
  obtain ⟨hbound, hallow⟩ := openNode_open true
  refine ⟨openNode_mem true, refuses_extra true, inserted_longer, accepted_openSchema true, ?_⟩
  refine (accepted_inserted_iff (regular_of_parseDocument parseDocument_sample)
    (accepted_openSchema true) (openNode_mem true) hbound hallow (refuses_extra true)
    inserted_longer).2 fun _ e he => ?_
  obtain rfl := Option.some.inj he
  rfl

/-- Where `B` has to occur, it may not. -/
theorem rejected_inserted_required :
    (openNode false ∈ (bindingOf sampleDocument (openSchema false)).nodes ∧
      (openNode false).node.boundTo? = some openSection ∧
      (openNode false).node.element.allowAdditional = true) ∧
      EachElement (Element.Refuses "" extraSection) (openSchema false).elements ∧
      Inserted sampleDocument openSection 0 extraSection longerDocument ∧
      (Run.journal do structureRule (← openContext sampleDocument (openSchema false) "")).1 =
        .ok [] ∧
      (Run.journal do structureRule (← openContext longerDocument (openSchema false) "")).1 ≠
        .ok [] := by
  refine ⟨⟨openNode_mem false, openNode_open false⟩, refuses_extra false, inserted_longer,
    accepted_openSchema false, fun haccepted => ?_⟩
  have hnone := mapM_eq_ok_nil (structureRun_ok_iff.1 haccepted).2.2
  have hfound : (structureFindings (HeadingSpec.accepts "")
      (bindingOf longerDocument (openSchema false)) longerDocument
      (openSchema false).elements).length = 1 := rfl
  rw [show structureFindings (HeadingSpec.accepts "") _ _ _ = [] from hnone] at hfound
  cases hfound

end Outline

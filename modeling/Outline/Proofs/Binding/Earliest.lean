import Outline.Proofs.Document.Lines
import Outline.Proofs.Binding.Siblings

/-!
# Earliest sections

Elements that have to occur once each take, one after the other, the first section that they find.
This is never a wrong choice: **every element finds a section exactly if sections in the order of
the document can be chosen for all of them, and no other choice has any of them earlier**
(`earliest_bindSiblings`), however much the headings that the elements accept overlap.

* `Chosen`: a choice of one section for each element;
* `firstChoices`: what is taken step by step;
* `Chosen.firstChoices`, `chosen_of_firstChoices`: it is a choice that is nowhere later than another;
* `ToldApart`: sections that the record of the binding tells apart;
* `mem_bound_bindSiblings`: what is put on record.
-/

namespace Outline

variable {accepts : Accepts} {elements : List Element} {sections : List Section}

/-! ## Choices -/

/-- **A choice of sections**: one for each element, which its heading accepts, in the order of the
document. -/
structure Chosen (accepts : Accepts) (elements : List Element) (sections chosen : List Section) :
    Prop where
  among : ∀ s ∈ chosen, s ∈ sections
  increasing : chosen.Pairwise fun s t => s.startLine < t.startLine
  accepted : List.Forall₂ (fun e s => accepts e.heading s.heading = true) elements chosen

/-- The first section that each element accepts behind those of the elements before it. -/
def firstChoices (accepts : Accepts) (sections : List Section) :
    List Element → (after : Nat) → List (Option Section)
  | [], _ => []
  | e :: es, after =>
    match (sectionsAfter after sections).find? fun s => accepts e.heading s.heading with
    | some s => some s :: firstChoices accepts sections es s.startLine
    | none => none :: firstChoices accepts sections es after

theorem Chosen.sectionsAfter_tail {e : Element} {es : List Element} {after line : Nat}
    {s : Section} {chosen : List Section}
    (h : Chosen accepts (e :: es) (sectionsAfter after sections) (s :: chosen))
    (hline : line ≤ s.startLine) : Chosen accepts es (sectionsAfter line sections) chosen := by
  obtain ⟨hs, hincreasing⟩ := List.pairwise_cons.1 h.increasing
  refine ⟨fun t ht => ?_, hincreasing, (List.forall₂_cons.1 h.accepted).2⟩
  have hmem := (mem_sectionsAfter.1 (h.among t (List.mem_cons_of_mem _ ht))).1
  exact mem_sectionsAfter.2 ⟨hmem, Nat.lt_of_le_of_lt hline (hs t ht)⟩

/-- The first section that is found begins no later than any other that is accepted. -/
theorem startLine_le_of_find? {p : Section → Bool}
    (hinc : sections.Pairwise fun s t => s.startLine < t.startLine) {s : Section}
    (hfind : sections.find? p = some s) {t : Section} (ht : t ∈ sections) (hp : p t = true) :
    s.startLine ≤ t.startLine := by
  obtain ⟨-, before, later, rfl, hbefore⟩ := List.find?_eq_some_iff_append.1 hfind
  have hlater := (List.pairwise_append.1 hinc).2.1
  rcases List.mem_append.1 ht with ht | ht
  · exact absurd hp (by simpa using hbefore t ht)
  · rcases List.mem_cons.1 ht with rfl | ht
    · exact Nat.le_refl _
    · exact Nat.le_of_lt ((List.pairwise_cons.1 hlater).1 t ht)

/-- **Where there is a choice, the first sections are one that is nowhere later.** -/
theorem Chosen.firstChoices (hinc : sections.Pairwise fun s t => s.startLine < t.startLine)
    (elements : List Element) : ∀ {after : Nat} {chosen : List Section},
      Chosen accepts elements (sectionsAfter after sections) chosen →
        ∃ taken, firstChoices accepts sections elements after = taken.map some ∧
          List.Forall₂ (fun s t => s.startLine ≤ t.startLine) taken chosen := by
  induction elements with
  | nil =>
    intro after chosen h
    rw [List.forall₂_nil_left_iff.1 h.accepted]
    exact ⟨[], rfl, .nil⟩
  | cons e es ih =>
    intro after chosen h
    obtain ⟨t, chosen, haccepts, -, rfl⟩ := List.forall₂_cons_left_iff.1 h.accepted
    have ht := h.among t List.mem_cons_self
    have hafter := hinc.sublist (sectionsAfter_sublist after sections)
    unfold Outline.firstChoices
    split
    · rename_i s hfind
      have hle := startLine_le_of_find? hafter hfind ht haccepts
      obtain ⟨taken, htaken, hall⟩ := ih (h.sectionsAfter_tail hle)
      exact ⟨s :: taken, by rw [htaken, List.map_cons], .cons hle hall⟩
    · rename_i hfind
      exact absurd haccepts (List.find?_eq_none.1 hfind t ht)

/-- **If every element finds a first section, these are a choice.** -/
theorem chosen_of_firstChoices (elements : List Element) : ∀ {after : Nat} {taken : List Section},
    firstChoices accepts sections elements after = taken.map some →
      Chosen accepts elements (sectionsAfter after sections) taken := by
  induction elements with
  | nil =>
    intro after taken h
    rw [List.map_eq_nil_iff.1 h.symm]
    exact ⟨fun _ hs => absurd hs List.not_mem_nil, .nil, .nil⟩
  | cons e es ih =>
    intro after taken h
    unfold firstChoices at h
    cases taken with
    | nil => split at h <;> cases h
    | cons s taken =>
      split at h
      · rename_i t hfind
        obtain ⟨hhead, hrest⟩ := List.cons.inj h
        obtain rfl : t = s := Option.some.inj hhead
        have hs := List.mem_of_find?_eq_some hfind
        have haccepts : accepts e.heading t.heading = true := by
          have := List.find?_some hfind
          exact this
        have hlater := ih hrest
        refine ⟨List.forall_mem_cons.2 ⟨hs, fun u hu => ?_⟩, List.pairwise_cons.2
          ⟨fun u hu => (mem_sectionsAfter.1 (hlater.among u hu)).2, hlater.increasing⟩,
          .cons haccepts hlater.accepted⟩
        obtain ⟨hu, hline⟩ := mem_sectionsAfter.1 (hlater.among u hu)
        exact mem_sectionsAfter.2 ⟨hu, (mem_sectionsAfter.1 hs).2.trans hline⟩
      · exact absurd (List.cons.inj h).1 (by simp)

/-! ## The record -/

/-- **Sections told apart by the record**, which holds the lines where bound sections begin: they begin
at increasing lines, and no section in one of them begins where one of them does. -/
structure ToldApart (sections : List Section) : Prop where
  increasing : sections.Pairwise fun s t => s.startLine < t.startLine
  positive : ∀ s ∈ sections, 0 < s.startLine
  below : ∀ s ∈ sections, ∀ t ∈ walkAll s.children, ∀ u ∈ sections, t.startLine ≠ u.startLine

theorem Regular.apart (h : Regular sections) : ToldApart sections where
  increasing := h.siblings
  positive s hs := h.positive s ((sublist_walkAll sections).subset hs)
  below s hs t ht u hu := by
    obtain ⟨before, later, rfl⟩ := List.append_of_mem hs
    have hinc := h.increasing
    rw [walkAll_append, walkAll_cons] at hinc
    obtain ⟨-, hfrom, hbefore⟩ := List.pairwise_append.1 hinc
    obtain ⟨hself, hinside⟩ := List.pairwise_cons.1 hfrom
    rcases List.mem_append.1 hu with hu | hu
    · exact Nat.ne_of_gt (hbefore u ((sublist_walkAll _).subset hu) t
        (List.mem_cons_of_mem _ (List.mem_append_left _ ht)))
    · rcases List.mem_cons.1 hu with rfl | hu
      · exact Nat.ne_of_gt (hself t (List.mem_append_left _ ht))
      · exact Nat.ne_of_lt ((List.pairwise_append.1 hinside).2.2 t ht u
          ((sublist_walkAll _).subset hu))

/-- A line that is on record was there before, or one of the sections begins at it. -/
def RecordedIn (bound : List Nat) (sections : List Section) (line : Nat) : Prop :=
  line ∈ bound ∨ ∃ s ∈ walkAll sections, s.startLine = line

theorem mem_bound_occurrences
    {bindBelow : List Section → Progress → List Node × Progress}
    (hbelow : ∀ inside st, ∀ line ∈ (bindBelow inside st).2.bound,
      RecordedIn st.bound inside line) (e : Element) (order count : Nat) (taken : List Section) :
    ∀ (index : Nat) (st : Progress),
      ∀ line ∈ (occurrences bindBelow e order count index taken st).2.bound,
        RecordedIn st.bound taken line := by
  induction taken with
  | nil => intro index st line h; exact Or.inl h
  | cons s taken ih =>
    intro index st line h
    have hwalk : walkAll (s :: taken) = s :: (walkAll s.children ++ walkAll taken) :=
      walkAll_cons s taken
    unfold RecordedIn
    rw [hwalk]
    rcases ih _ _ line h with h | ⟨t, ht, he⟩
    · rcases hbelow s.children (st.bind s) line h with h | ⟨t, ht, he⟩
      · rcases List.mem_cons.1 h with rfl | h
        · exact Or.inr ⟨s, List.mem_cons_self, rfl⟩
        · exact Or.inl h
      · exact Or.inr ⟨t, List.mem_cons_of_mem _ (List.mem_append_left _ ht), he⟩
    · exact Or.inr ⟨t, List.mem_cons_of_mem _ (List.mem_append_right _ ht), he⟩

/-- **Only the sections at hand and those in them are put on record.** -/
theorem mem_bound_bindSiblings (elements : List Element) :
    ∀ {order : Nat} {sections : List Section} {after : Nat} {st : Progress},
      ∀ line ∈ (bindSiblings accepts elements order sections after st).2.bound,
        RecordedIn st.bound sections line := by
  induction elements using elements_induction with
  | nil => intro order sections after st line h; exact Or.inl h
  | cons e es ihe ih =>
    intro order sections after st line h
    simp only [bindSiblings, bindElement_eq] at h
    have hsub : ((e.take accepts (st.free after sections))).Sublist sections :=
      (e.take_sublist accepts _).trans List.filter_sublist
    rcases ih line h with h | h
    · split at h
      · exact Or.inl h
      · rcases mem_bound_occurrences (fun _ _ => ihe) _ _ _ _ _ _ line h with h | ⟨s, hs, he⟩
        · exact Or.inl h
        · exact Or.inr ⟨s, (walkAll_sublist hsub).subset hs, he⟩
    · exact Or.inr h

/-- None of the sections behind a line is on record. -/
def FreeAfter (st : Progress) (after : Nat) (sections : List Section) : Prop :=
  ∀ s ∈ sectionsAfter after sections, s.startLine ∉ st.bound

theorem FreeAfter.free_eq {st : Progress} {after : Nat} (h : FreeAfter st after sections) :
    st.free after sections = sectionsAfter after sections := by
  refine List.filter_congr fun s hs => ?_
  by_cases hafter : after < s.startLine
  · have hfree := h s (mem_sectionsAfter.2 ⟨hs, hafter⟩)
    simp [hafter, hfree]
  · simp [hafter]

/-- Behind a section that is bound, with sections in it, none is on record. -/
theorem FreeAfter.next (hapart : ToldApart sections) {st st' : Progress} {after : Nat}
    (h : FreeAfter st after sections) {s : Section} (hs : s ∈ sectionsAfter after sections)
    (hrecord : ∀ line ∈ st'.bound, RecordedIn st.bound [s] line) :
    FreeAfter st' s.startLine sections := by
  obtain ⟨hs, hafter⟩ := mem_sectionsAfter.1 hs
  intro t ht hline
  obtain ⟨ht, hlater⟩ := mem_sectionsAfter.1 ht
  rcases hrecord _ hline with hline | ⟨u, hu, he⟩
  · exact h t (mem_sectionsAfter.2 ⟨ht, hafter.trans hlater⟩) hline
  · rw [walkAll_cons, walkAll_nil, List.append_nil] at hu
    rcases List.mem_cons.1 hu with rfl | hu
    · omega
    · exact hapart.below s hs u hu t ht he

/-! ## Binding -/

/-- An element that may occur once takes the first section that its heading accepts. -/
theorem Element.take_eq_find? {e : Element} (h : e.isRepeatable = false) (free : List Section) :
    e.take accepts free = (free.find? fun s => accepts e.heading s.heading).toList := by
  unfold take takeMatching
  rw [e.most_of_not_isRepeatable h]
  dsimp only
  rw [List.take_one, List.head?_filter]

/-- **Elements that have to occur once each are bound to their first choices**, each with a node of
its own. -/
theorem bindSiblings_eq_firstChoices (accepts : Accepts) (hapart : ToldApart sections)
    (elements : List Element) :
    (∀ e ∈ elements, e.isRequired = true ∧ e.isRepeatable = false) →
      ∀ (order : Nat) {after : Nat} {st : Progress}, FreeAfter st after sections →
        (bindSiblings accepts elements order sections after st).1.map Node.boundTo? =
            firstChoices accepts sections elements after ∧
          (bindSiblings accepts elements order sections after st).1.map
            (fun n => (n.element, n.order)) = elements.zipIdx order := by
  induction elements with
  | nil => intro _ order after st _; exact ⟨rfl, rfl⟩
  | cons e es ih =>
    intro hall order after st hfree
    obtain ⟨⟨hrequired, hsingle⟩, hall⟩ := List.forall_mem_cons.1 hall
    simp only [bindSiblings, hfree.free_eq, Element.take_eq_find? hsingle, bindElement_eq]
    rw [firstChoices, List.zipIdx_cons]
    cases hfind : (sectionsAfter after sections).find? fun s => accepts e.heading s.heading with
    | some s =>
      have hs := List.mem_of_find?_eq_some hfind
      have hbelow : ∀ inside st, ∀ line ∈ (bindSiblings accepts e.children 0 inside 0 st).2.bound,
          RecordedIn st.bound inside line := fun _ _ => mem_bound_bindSiblings e.children
      have hnext := hfree.next hapart hs (mem_bound_occurrences hbelow e order 1 [s] 0
        (st.note e.heading (e.look accepts (sectionsAfter after sections))))
      have hrest := ih hall (order + 1) hnext
      exact ⟨congrArg (some s :: ·) hrest.1, congrArg ((e, order) :: ·) hrest.2⟩
    | none =>
      have hfree' : FreeAfter (st.note e.heading (e.look accepts (sectionsAfter after sections)))
        after sections := hfree
      have hrest := ih hall (order + 1) hfree'
      simp only [Option.toList_none, List.isEmpty_nil, if_true, hrequired, e.unbound_eq,
        List.singleton_append, List.map_cons]
      exact ⟨congrArg (none :: ·) hrest.1, congrArg ((e, order) :: ·) hrest.2⟩

/-- **Nodes bound as early as can be**: each element has one node, all of them find a section exactly
if there is a choice for all, and then no choice has any of them earlier. -/
structure Earliest (accepts : Accepts) (elements : List Element) (sections : List Section)
    (nodes : List Node) : Prop where
  each : nodes.map (fun n => (n.element, n.order)) = elements.zipIdx
  complete : (∀ n ∈ nodes, n.isBound = true) ↔ ∃ chosen, Chosen accepts elements sections chosen
  earliest : (∀ n ∈ nodes, n.isBound = true) →
    ∃ taken : List Section, nodes.map Node.boundTo? = taken.map some ∧
      Chosen accepts elements sections taken ∧
      ∀ chosen, Chosen accepts elements sections chosen →
        List.Forall₂ (fun s t => s.startLine ≤ t.startLine) taken chosen

theorem exists_map_some {α β : Type} {f : α → Option β} {l : List α} :
    (∀ a ∈ l, (f a).isSome = true) ↔ ∃ bs : List β, l.map f = bs.map some := by
  constructor
  · intro h
    refine ⟨l.filterMap f, ?_⟩
    rw [List.map_filterMap_some_eq_filter_map_isSome]
    exact (List.filter_eq_self.2 (List.forall_mem_map.2 h)).symm
  · rintro ⟨bs, hbs⟩ a ha
    obtain ⟨b, -, hb⟩ := List.mem_map.1 (hbs ▸ List.mem_map_of_mem ha)
    rw [← hb]
    rfl

/-- **Elements that have to occur once each are bound as early as can be**, all of them if that is
possible at all. -/
theorem earliest_bindSiblings (accepts : Accepts) {elements : List Element}
    (hsingle : ∀ e ∈ elements, e.isRequired = true ∧ e.isRepeatable = false)
    {sections : List Section} (hapart : ToldApart sections) {st : Progress} (hst : st.bound = []) :
    Earliest accepts elements sections
      (bindSiblings accepts elements 0 sections 0 st).1 := by
  have hzero : sectionsAfter 0 sections = sections :=
    List.filter_eq_self.2 fun s hs => decide_eq_true (hapart.positive s hs)
  have hfree : FreeAfter st 0 sections := fun s _ => by simp [hst]
  obtain ⟨hbound, heach⟩ :=
    bindSiblings_eq_firstChoices accepts hapart elements hsingle 0 hfree
  generalize (bindSiblings accepts elements 0 sections 0 st).1 = nodes at hbound heach
  have hall : (∀ n ∈ nodes, n.isBound = true) ↔
      ∃ taken : List Section, firstChoices accepts sections elements 0 = taken.map some := by
    rw [← hbound]
    exact exists_map_some
  refine ⟨heach, ?_, fun h => ?_⟩
  · rw [hall]
    constructor
    · rintro ⟨taken, htaken⟩
      exact ⟨taken, hzero ▸ chosen_of_firstChoices elements htaken⟩
    · rintro ⟨chosen, hchosen⟩
      obtain ⟨taken, htaken, -⟩ :=
        Chosen.firstChoices hapart.increasing elements (hzero.symm ▸ hchosen)
      exact ⟨taken, htaken⟩
  · obtain ⟨taken, htaken⟩ := hall.1 h
    refine ⟨taken, hbound.trans htaken, hzero ▸ chosen_of_firstChoices elements htaken,
      fun chosen hchosen => ?_⟩
    obtain ⟨taken', htaken', hle⟩ :=
      Chosen.firstChoices hapart.increasing elements (hzero.symm ▸ hchosen)
    rw [htaken] at htaken'
    rwa [List.map_injective_iff.2 (Option.some_injective _) htaken']

/-- Two elements for the subsections of the sample; the first accepts all of them. -/
def overlappingElements : List Element :=
  [{ heading := .pattern "## [BC]" }, { heading := .literal "## B" }]

theorem apart_sample : ToldApart (sampleDocument.sections.flatMap Section.children) :=
  ((regular_of_parseDocument parseDocument_sample).children List.mem_cons_self).apart

/-- The first `B` is left to the first element, and the second one takes the other. -/
example : (firstChoices (HeadingSpec.accepts "") (sampleDocument.sections.flatMap Section.children)
    overlappingElements 0).map (Option.map Section.startLine) = [some 3, some 7] := by
  decide +kernel

theorem earliest_sample :
    (∀ e ∈ overlappingElements, e.isRequired = true ∧ e.isRepeatable = false) ∧
      ToldApart (sampleDocument.sections.flatMap Section.children) ∧ ({} : Progress).bound = [] ∧
        Earliest (HeadingSpec.accepts "") overlappingElements
          (sampleDocument.sections.flatMap Section.children)
          (bindSiblings (HeadingSpec.accepts "") overlappingElements 0
            (sampleDocument.sections.flatMap Section.children) 0 {}).1 :=
  ⟨by decide, apart_sample, rfl,
    earliest_bindSiblings _ (by decide) apart_sample rfl⟩

end Outline

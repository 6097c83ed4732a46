import Outline.Proofs.Binding.Padded

/-!
# Binding without its record

What the binding of elements to sections asks, told without its record (`Asked`,
`mem_asked_bindSiblings`). With sections that no element takes put among those of a document, **the
binding asks the same questions, and others about those sections only** (`Asked.of_padded`). And
**the binding of a document is the same if elements may take sections on record**
(`independent_bindDocument`), so that each scope is bound for itself.

* `bindSiblingsAmong`: binding where the sections to take from are chosen in another way;
* `bindSiblingsAmong_allAfter`: without the record, what was done before does not matter.
-/

namespace Outline

/-- **The question is asked when elements are bound to the sections behind a line**: an element is
compared with the sections that it looks at, the elements below it are bound to the subsections of
what it takes, and its later siblings to the sections behind that. -/
inductive Asked (accepts : Accepts) : List Element → List Section → Nat → Question → Prop
  | here {e : Element} {es : List Element} {sections : List Section} {after : Nat} {s : Section}
      (h : s ∈ e.look accepts (sectionsAfter after sections)) :
      Asked accepts (e :: es) sections after ⟨e.heading, s.heading⟩
  | inside {e : Element} {es : List Element} {sections : List Section} {after : Nat} {s : Section}
      {q : Question} (hs : s ∈ e.take accepts (sectionsAfter after sections))
      (h : Asked accepts e.children s.children 0 q) : Asked accepts (e :: es) sections after q
  | later {e : Element} {es : List Element} {sections : List Section} {after : Nat} {q : Question}
      (h : Asked accepts es sections
        (lastLine after (e.take accepts (sectionsAfter after sections))) q) :
      Asked accepts (e :: es) sections after q

section

variable {accepts : Accepts}

theorem asked_cons_iff {e : Element} {es : List Element} {sections : List Section} {after : Nat}
    {q : Question} : Asked accepts (e :: es) sections after q ↔
      (∃ s ∈ e.look accepts (sectionsAfter after sections), ⟨e.heading, s.heading⟩ = q) ∨
      (∃ s ∈ e.take accepts (sectionsAfter after sections),
        Asked accepts e.children s.children 0 q) ∨
      Asked accepts es sections
        (lastLine after (e.take accepts (sectionsAfter after sections))) q := by
  constructor
  · rintro (h | ⟨hs, h⟩ | h)
    · exact Or.inl ⟨_, h, rfl⟩
    · exact Or.inr (Or.inl ⟨_, hs, h⟩)
    · exact Or.inr (Or.inr h)
  · rintro (⟨s, hs, rfl⟩ | ⟨s, hs, h⟩ | h)
    · exact .here hs
    · exact .inside hs h
    · exact .later h

/-! ## The record -/

theorem mem_asked_note {st : Progress} {spec : HeadingSpec} {sections : List Section}
    {q : Question} : q ∈ (st.note spec sections).asked ↔
      q ∈ st.asked ∨ ∃ s ∈ sections, ⟨spec, s.heading⟩ = q := by
  simp only [Progress.note, List.mem_append, List.mem_reverse, List.mem_map]
  exact or_comm

theorem mem_asked_occurrences {bindBelow : List Section → Progress → List Node × Progress}
    {e : Element} {below : Section → List Node} {asks : Section → Question → Prop}
    (order count : Nat) {taken : List Section} : ∀ (index : Nat) {st : Progress}, Regular taken →
      Untouched st taken → (∀ s ∈ taken, Records bindBelow s.children (below s)) →
      (∀ s ∈ taken, (boundSections (below s)).Sublist (walkAll s.children)) →
      (∀ s ∈ taken, ∀ st q, Untouched st s.children →
        (q ∈ (bindBelow s.children st).2.asked ↔ q ∈ st.asked ∨ asks s q)) →
      ∀ q, q ∈ (occurrences bindBelow e order count index taken st).2.asked ↔
        q ∈ st.asked ∨ ∃ s ∈ taken, asks s q := by
  induction taken with
  | nil => intro index st _ _ _ _ _ q; simp [occurrences]
  | cons s taken ih =>
    intro index st hreg hst hrec hsub hasks q
    have hbind := hst.bind hreg List.mem_cons_self
    obtain ⟨hs, hasks⟩ := List.forall_mem_cons.1 hasks
    have hrest := hst.next hreg (hsub s List.mem_cons_self) (hrec s List.mem_cons_self _ hbind).2
    simp only [occurrences]
    rw [ih (index + 1) (hreg.sublist (List.sublist_cons_self _ _)) hrest
      (fun t ht => hrec t (List.mem_cons_of_mem _ ht))
      (fun t ht => hsub t (List.mem_cons_of_mem _ ht)) hasks q, hs _ q hbind]
    simp [Progress.bind, or_assoc]

variable (accepts) in
theorem records_below {e : Element} {sections : List Section} (hreg : Regular sections) :
    ∀ s ∈ sections,
      Records (fun sections st => bindSiblings accepts e.children 0 sections 0 st) s.children
        (matchBelow accepts e s) ∧
      (boundSections (matchBelow accepts e s)).Sublist (walkAll s.children) := by
  intro s hs
  have hchildren := hreg.children hs
  have hzero := sectionsAfter_zero hchildren
  have hsub := boundSections_matchSiblings_sublist accepts e.children 0 0 hchildren
  rw [hzero] at hsub
  exact ⟨fun st hst => bindSiblings_eq accepts e.children 0 0 hchildren (by rwa [hzero]), hsub⟩

variable (accepts) in
/-- Where no section behind a line is on record, what an element takes is not, and when it is bound,
what it leaves to its later siblings is not either. -/
theorem Untouched.taken_and_left {e : Element} (order : Nat) {sections : List Section} {after : Nat}
    {st : Progress} (hreg : Regular sections) (hst : Untouched st (sectionsAfter after sections)) :
    Untouched st (e.take accepts (sectionsAfter after sections)) ∧
      Untouched (bindElement accepts e order (e.take accepts (sectionsAfter after sections)) st).2
        (sectionsAfter (lastLine after (e.take accepts (sectionsAfter after sections)))
          sections) := by
  have htaken := e.take_sublist accepts (sectionsAfter after sections)
  have hregTaken := hreg.sublist (htaken.trans (sectionsAfter_sublist _ _))
  have hbelow := records_below accepts (e := e) hregTaken
  have hstTaken : Untouched st (e.take accepts (sectionsAfter after sections)) := fun s hs =>
    hst s ((walkAll_sublist htaken).subset hs)
  have hrecord := (bindElement_record accepts order hregTaken hstTaken
    (fun s hs => (hbelow s hs).1) fun s hs => (hbelow s hs).2).2
  exact ⟨hstTaken, hst.left hreg htaken (fun s hs => (hbelow s hs).2) hrecord⟩

variable (accepts) in
/-- **The binding asks what is told without its record.** -/
theorem mem_asked_bindSiblings (elements : List Element) :
    ∀ (order : Nat) {sections : List Section} (after : Nat) {st : Progress}, Regular sections →
      Untouched st (sectionsAfter after sections) →
      ∀ q, q ∈ (bindSiblings accepts elements order sections after st).2.asked ↔
        q ∈ st.asked ∨ Asked accepts elements sections after q := by
  induction elements using elements_induction with
  | nil =>
    intro order sections after st _ _ q
    have hnone : ¬ Asked accepts [] sections after q := fun h => by cases h
    simp [bindSiblings, hnone]
  | cons e es ihe ih =>
    intro order sections after st hreg hst q
    have htaken := e.take_sublist accepts (sectionsAfter after sections)
    have hregTaken := hreg.sublist (htaken.trans (sectionsAfter_sublist _ _))
    have hbelow := records_below accepts (e := e) hregTaken
    have hnoted : Untouched (st.note e.heading (e.look accepts (sectionsAfter after sections)))
        (sectionsAfter after sections) := hst
    obtain ⟨hstTaken, hleft⟩ := hnoted.taken_and_left accepts (e := e) order hreg
    -- what binding the element itself asks
    have hasked : ∀ q, q ∈ (bindElement accepts e order
        (e.take accepts (sectionsAfter after sections))
        (st.note e.heading (e.look accepts (sectionsAfter after sections)))).2.asked ↔
        q ∈ (st.note e.heading (e.look accepts (sectionsAfter after sections))).asked ∨
          ∃ s ∈ e.take accepts (sectionsAfter after sections),
            Asked accepts e.children s.children 0 q := by
      intro q
      rw [bindElement_eq]
      split
      · rename_i hempty
        simp [List.isEmpty_iff.1 hempty]
      · refine mem_asked_occurrences order _ 0 hregTaken hstTaken (fun s hs => (hbelow s hs).1)
          (fun s hs => (hbelow s hs).2) (fun s hs st q hst => ?_) q
        have hchildren := hregTaken.children hs
        exact ihe 0 0 hchildren (by rwa [sectionsAfter_zero hchildren]) q
    simp only [bindSiblings, hst.free_eq]
    rw [ih (order + 1) _ hreg hleft q, hasked q, mem_asked_note, asked_cons_iff]
    simp only [or_assoc]

theorem mem_asked_bindDocument {d : Document} (h : Regular d.sections) (elements : List Element)
    (q : Question) : q ∈ (bindDocument accepts d elements).asked ↔
      Asked accepts elements d.sections 0 q := by
  have hst : Untouched {} (sectionsAfter 0 d.sections) := fun _ _ => List.not_mem_nil
  have hiff := mem_asked_bindSiblings accepts elements 0 0 h hst q
  rw [bindDocument, List.mem_reverse, hiff]
  exact or_iff_right List.not_mem_nil

end

/-! ## Sections that no element takes -/

section

variable {accepts : Accepts} {other : Section → Prop} {R : Section → Section → Prop}

theorem askedAmong_cons {α : Type} {p : α → Bool} {most : Option Nat} (hmost : most ≠ some 0)
    (a : α) (as : List α) : askedAmong p most (a :: as) =
      a :: askedAmong p (if p a then most.map (· - 1) else most) as := by
  rw [askedAmong]
  exact fun h => absurd h hmost

/-- Among sections with others an element looks at what its sections have become, and at some of the
others. -/
theorem mem_askedAmong_of_padded (hsound : Sound accepts other R) {spec : HeadingSpec}
    (hignores : ∀ t, other t → accepts spec t.heading = false) {l l' : List Section}
    (h : Padded other R l l') : ∀ (most : Option Nat),
      ∀ t ∈ askedAmong (fun s => accepts spec s.heading) most l', other t ∨
        ∃ s ∈ askedAmong (fun s => accepts spec s.heading) most l, R s t := by
  induction h with
  | nil => intro most t ht; exact absurd ht (by cases most <;> exact List.not_mem_nil)
  | @both s t ss ts hst _ ih =>
    intro most u hu
    by_cases hmost : most = some 0
    · subst hmost
      exact absurd hu List.not_mem_nil
    · rw [askedAmong_cons hmost] at hu ⊢
      rw [(hsound s t hst).1]
      rcases List.mem_cons.1 hu with rfl | hu
      · exact Or.inr ⟨s, List.mem_cons_self, hst⟩
      · rcases ih _ u hu with hother | ⟨v, hv, hvu⟩
        · exact Or.inl hother
        · exact Or.inr ⟨v, List.mem_cons_of_mem _ hv, hvu⟩
  | @extra t ss ts ht _ ih =>
    intro most u hu
    by_cases hmost : most = some 0
    · subst hmost
      exact absurd hu List.not_mem_nil
    · rw [askedAmong_cons hmost, hignores t ht] at hu
      rcases List.mem_cons.1 hu with rfl | hu
      · exact Or.inl ht
      · exact ih most u hu

theorem exists_of_forall₂ {α : Type} {R : α → α → Prop} {l l' : List α} (h : List.Forall₂ R l l') :
    ∀ b ∈ l', ∃ a ∈ l, R a b := by
  induction h with
  | nil => exact fun _ hb => absurd hb List.not_mem_nil
  | @cons a b l l' hab _ ih =>
    refine List.forall_mem_cons.2 ⟨⟨a, List.mem_cons_self, hab⟩, fun c hc => ?_⟩
    obtain ⟨d, hd, hdc⟩ := ih c hc
    exact ⟨d, List.mem_cons_of_mem _ hd, hdc⟩

/-- **With other sections among them, the binding asks the same questions, and some about the
others.** -/
theorem Asked.of_padded (hsound : Sound accepts other R) {elements : List Element}
    {P : Element → Prop} (h : EachElement P elements) (hP : ∀ e, P e → e.Ignores accepts other) :
    ∀ {l l' : List Section} {after after' : Nat}, Regular l → Regular l' →
      Padded other R (sectionsAfter after l) (sectionsAfter after' l') →
      ∀ q', Asked accepts elements l' after' q' →
        (∃ e t, P e ∧ other t ∧ q' = ⟨e.heading, t.heading⟩) ∨
          ∃ q s t, Asked accepts elements l after q ∧ R s t ∧ q = ⟨q'.spec, s.heading⟩ ∧
            q'.heading = t.heading := by
  induction h with
  | nil => intro _ _ _ _ _ _ _ q' hq'; cases hq'
  | @cons e es here _ _ ihbelow ihrest =>
    intro l l' after after' hreg hreg' hpadded q' hq'
    obtain ⟨hboth, hleft⟩ := hpadded.take hsound (hP e here) hreg hreg'
    cases hq' with
    | @here _ _ _ _ t ht =>
      rcases mem_askedAmong_of_padded hsound (hP e here) hpadded e.most t ht with
        hother | ⟨s, hs, hst⟩
      · exact Or.inl ⟨e, t, here, hother, rfl⟩
      · exact Or.inr ⟨_, s, t, .here hs, hst, rfl, rfl⟩
    | @inside _ _ _ _ t _ ht hq' =>
      obtain ⟨s, hs, hst⟩ := exists_of_forall₂ hboth t ht
      have hchildren := regular_of_mem_take hreg hs
      have hchildren' := regular_of_mem_take hreg' ht
      rcases ihbelow hchildren hchildren' (hsound.children hst hchildren hchildren') q' hq' with
        hother | ⟨q, u, v, hq, huv⟩
      · exact Or.inl hother
      · exact Or.inr ⟨q, u, v, .inside hs hq, huv⟩
    | later hq' =>
      rcases ihrest hreg hreg' hleft q' hq' with hother | ⟨q, u, v, hq, huv⟩
      · exact Or.inl hother
      · exact Or.inr ⟨q, u, v, .later hq, huv⟩

end

/-! ## Binding with other candidates -/

/-- The sections among which an element takes some, by what has been done so far and the line that
they begin after. -/
abbrev Candidates := Progress → (after : Nat) → List Section → List Section

mutual

/-- The nodes of an element for the sections that it took, as `bindElement` makes them, where the
elements below it take theirs among other candidates. -/
def bindElementAmong (candidates : Candidates) (accepts : Accepts) :
    Element → (order : Nat) → (taken : List Section) → Progress → List Node × Progress
  | ⟨heading, optional, count, severity, allowAdditional, rules, description, children⟩,
      order, taken, st =>
    let e : Element :=
      ⟨heading, optional, count, severity, allowAdditional, rules, description, children⟩
    if taken.isEmpty then (if e.isRequired then [e.unbound order] else [], st)
    else
      occurrences (fun sections st => bindSiblingsAmong candidates accepts children 0 sections 0 st)
        e order taken.length 0 taken st

/-- The nodes of elements that are siblings, as `bindSiblings` makes them, where each element takes
its sections among other candidates. -/
def bindSiblingsAmong (candidates : Candidates) (accepts : Accepts) :
    List Element → (order : Nat) → (sections : List Section) → (after : Nat) → Progress →
      List Node × Progress
  | [], _, _, _, st => ([], st)
  | e :: es, order, sections, after, st =>
    let free := candidates st after sections
    let taken := e.take accepts free
    let (here, st) :=
      bindElementAmong candidates accepts e order taken (st.note e.heading (e.look accepts free))
    let (rest, st) :=
      bindSiblingsAmong candidates accepts es (order + 1) sections (lastLine after taken) st
    (here ++ rest, st)

end

/-- Binds elements to a document, where each takes its sections among other candidates. -/
def bindDocumentAmong (candidates : Candidates) (accepts : Accepts) (d : Document)
    (elements : List Element) : Binding :=
  let (roots, st) := bindSiblingsAmong candidates accepts elements 0 d.sections 0 {}
  ⟨roots, st.bound, st.asked.reverse⟩

/-- All sections that begin after the line, whether they are on record or not. -/
def allAfter : Candidates := fun _ => sectionsAfter

section

variable (accepts : Accepts)

theorem bindElementAmong_eq (candidates : Candidates) (e : Element) (order : Nat)
    (taken : List Section) (st : Progress) :
    bindElementAmong candidates accepts e order taken st =
      if taken.isEmpty then (if e.isRequired then [e.unbound order] else [], st)
      else occurrences
        (fun sections st => bindSiblingsAmong candidates accepts e.children 0 sections 0 st) e order
        taken.length 0 taken st := by
  cases e; rfl

/-- Among the sections that are free, elements are bound as before. -/
theorem bindSiblingsAmong_free (elements : List Element) :
    bindSiblingsAmong Progress.free accepts elements = bindSiblings accepts elements := by
  induction elements using elements_induction with
  | nil => rfl
  | cons e es ihe ih =>
    funext order sections after st
    simp only [bindSiblingsAmong, bindSiblings, bindElementAmong_eq, bindElement_eq, ihe, ih]

/-- The nodes that an element takes sections for do not depend on what the record is. -/
theorem occurrences_fst {bindBelow : List Section → Progress → List Node × Progress} {e : Element}
    {below : Section → List Node} (order count : Nat) {taken : List Section}
    (h : ∀ s ∈ taken, ∀ st, (bindBelow s.children st).1 = below s) :
    ∀ (index : Nat) (st : Progress), (occurrences bindBelow e order count index taken st).1 =
      (taken.zipIdx index).map (e.node below order count) := by
  induction taken with
  | nil => intro index st; rfl
  | cons s taken ih =>
    intro index st
    obtain ⟨hs, htaken⟩ := List.forall_mem_cons.1 h
    simp only [occurrences]
    rw [hs, ih htaken, List.zipIdx_cons, List.map_cons]
    rfl

/-- **Without the record, the nodes are the same whatever was done before.** -/
theorem bindSiblingsAmong_allAfter (elements : List Element) :
    ∀ (order : Nat) (sections : List Section) (after : Nat) (st : Progress),
      (bindSiblingsAmong allAfter accepts elements order sections after st).1 =
        matchSiblings accepts elements order sections after := by
  induction elements using elements_induction with
  | nil => intro order sections after st; rfl
  | cons e es ihe ih =>
    intro order sections after st
    have hhere (taken : List Section) (st : Progress) :
        (bindElementAmong allAfter accepts e order taken st).1 =
          e.nodes (matchBelow accepts e) order taken := by
      rw [bindElementAmong_eq, Element.nodes]
      split
      · rfl
      · exact occurrences_fst order taken.length (fun s _ st => ihe 0 s.children 0 st) 0 st
    rw [matchSiblings_cons]
    simp only [bindSiblingsAmong, allAfter]
    rw [← hhere _ (st.note e.heading (e.look accepts (sectionsAfter after sections))), ← ih]

/-- Binding is the same with two ways to bind what is below, if these agree where no section is on
record. -/
theorem occurrences_congr {bindBelow bindBelow' : List Section → Progress → List Node × Progress}
    {e : Element} {below : Section → List Node} (order count : Nat) {taken : List Section} :
    ∀ (index : Nat) {st : Progress}, Regular taken → Untouched st taken →
      (∀ s ∈ taken, Records bindBelow s.children (below s)) →
      (∀ s ∈ taken, (boundSections (below s)).Sublist (walkAll s.children)) →
      (∀ s ∈ taken, ∀ st, Untouched st s.children →
        bindBelow' s.children st = bindBelow s.children st) →
      occurrences bindBelow' e order count index taken st =
        occurrences bindBelow e order count index taken st := by
  induction taken with
  | nil => intro index st _ _ _ _ _; rfl
  | cons s taken ih =>
    intro index st hreg hst hrec hsub hsame
    obtain ⟨hs, hsame⟩ := List.forall_mem_cons.1 hsame
    have hbind := hst.bind hreg List.mem_cons_self
    have hrest := hst.next hreg (hsub s List.mem_cons_self) (hrec s List.mem_cons_self _ hbind).2
    have htaken := ih (index + 1) (hreg.sublist (List.sublist_cons_self _ _)) hrest
      (fun t ht => hrec t (List.mem_cons_of_mem _ ht))
      (fun t ht => hsub t (List.mem_cons_of_mem _ ht)) hsame
    simp only [occurrences, hs _ hbind, htaken]

/-- **The record makes no difference** to the binding of elements to sections that are not on it. -/
theorem bindSiblingsAmong_eq (elements : List Element) :
    ∀ (order : Nat) {sections : List Section} (after : Nat) {st : Progress}, Regular sections →
      Untouched st (sectionsAfter after sections) →
      bindSiblingsAmong allAfter accepts elements order sections after st =
        bindSiblings accepts elements order sections after st := by
  induction elements using elements_induction with
  | nil => intro order sections after st _ _; rfl
  | cons e es ihe ih =>
    intro order sections after st hreg hst
    have htaken := e.take_sublist accepts (sectionsAfter after sections)
    have hregTaken := hreg.sublist (htaken.trans (sectionsAfter_sublist _ _))
    have hbelow := records_below accepts (e := e) hregTaken
    have hnoted : Untouched (st.note e.heading (e.look accepts (sectionsAfter after sections)))
        (sectionsAfter after sections) := hst
    obtain ⟨hstTaken, hleft⟩ := hnoted.taken_and_left accepts (e := e) order hreg
    have hhere : bindElementAmong allAfter accepts e order
        (e.take accepts (sectionsAfter after sections))
        (st.note e.heading (e.look accepts (sectionsAfter after sections))) =
        bindElement accepts e order (e.take accepts (sectionsAfter after sections))
          (st.note e.heading (e.look accepts (sectionsAfter after sections))) := by
      rw [bindElementAmong_eq, bindElement_eq]
      split
      · rfl
      · refine occurrences_congr order _ 0 hregTaken hstTaken (fun s hs => (hbelow s hs).1)
          (fun s hs => (hbelow s hs).2) fun s hs st hst => ?_
        have hchildren := hregTaken.children hs
        exact ihe 0 0 hchildren (by rwa [sectionsAfter_zero hchildren])
    simp only [bindSiblingsAmong, bindSiblings, hst.free_eq]
    simp only [allAfter] at hhere ⊢
    rw [hhere]
    simp only [ih (order + 1) (lastLine after (e.take accepts (sectionsAfter after sections))) hreg
      hleft]

/-- **The scopes of a document are bound independently of each other.** Binding is the same, in its
nodes, its record and its questions, if elements take their sections without regard to the record;
and below a node with a section there are the nodes that the elements below its own one have for the
subsections of that section, whatever was bound before. -/
structure Independent (accepts : Accepts) (d : Document) (elements : List Element) : Prop where
  recorded : bindDocumentAmong Progress.free accepts d elements = bindDocument accepts d elements
  unrecorded : bindDocumentAmong allAfter accepts d elements = bindDocument accepts d elements
  below : ∀ p ∈ (bindDocument accepts d elements).nodes, ∀ s, p.node.boundTo? = some s →
    p.node.children = (bindSiblings accepts p.node.element.children 0 s.children 0 {}).1 ∧
    ∀ st, p.node.children =
      (bindSiblingsAmong allAfter accepts p.node.element.children 0 s.children 0 st).1

/-- **Scopes are independent.** -/
theorem independent_bindDocument {text path : String} {d : Document}
    (h : parseDocument text path = .ok d) (elements : List Element) :
    Independent accepts d elements := by
  have hreg := regular_of_parseDocument h
  refine ⟨?_, ?_, fun p hp s hs => ?_⟩
  · rw [bindDocumentAmong, bindSiblingsAmong_free]
    rfl
  · rw [bindDocumentAmong,
      bindSiblingsAmong_eq accepts elements 0 0 hreg fun _ _ => List.not_mem_nil]
    rfl
  · have hnode := node_mem_allNodes hp
    rw [bindDocument_roots accepts elements hreg] at hnode
    obtain ⟨hsections, hchildren⟩ := children_eq_matchSiblings accepts elements hreg p.node hnode
    rw [Node.sections, hs] at hsections hchildren
    rw [hchildren]
    refine ⟨?_, fun st => (bindSiblingsAmong_allAfter accepts _ 0 _ 0 st).symm⟩
    exact (bindSiblings_eq accepts _ 0 0 hsections fun _ _ => List.not_mem_nil).1.symm

theorem independent_sample : parseDocument sampleText "" = .ok sampleDocument ∧
    Independent (HeadingSpec.accepts "") sampleDocument sampleElements :=
  ⟨parseDocument_sample, independent_bindDocument _ parseDocument_sample sampleElements⟩

end

end Outline

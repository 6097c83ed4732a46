import Outline.Proofs.Binding.Node
import Outline.Proofs.Binding.Take

/-!
# Siblings

Binding keeps a record of the sections that have a node. In regular sections the record is not
needed: `matchSiblings` binds elements to sections without one, and **it gives the same nodes**
(`bindSiblings_eq`). Everything about the nodes of a document is proved of `matchSiblings`, where
the nodes below a section depend on that section only.

* `elements_induction`: induction over trees of elements;
* `Element.nodes`, `matchSiblings`: the nodes of an element, and of elements that are siblings;
* `boundSections_matchSiblings_sublist`: the sections with a node are sections of the walk, in its
  order, none of them twice;
* `bindDocument_roots`, `bindDocument_bound`: the nodes of a document, and the record of its
  sections.
-/

namespace Outline

/-! ## Induction -/

mutual

theorem belowElement_induction {P : List Element → Prop} (nil : P [])
    (cons : ∀ e es, P e.children → P es → P (e :: es)) : ∀ e : Element, P e.children
  | ⟨_, _, _, _, _, _, _, children⟩ => elements_induction nil cons children

/-- Induction over trees of elements. -/
@[elab_as_elim]
theorem elements_induction {P : List Element → Prop} (nil : P [])
    (cons : ∀ e es, P e.children → P es → P (e :: es)) : ∀ elements, P elements
  | [] => nil
  | e :: es => cons e es (belowElement_induction nil cons e) (elements_induction nil cons es)

end

/-! ## Nodes -/

/-- The node of an element for one of the sections that it took. -/
def Element.node (e : Element) (below : Section → List Node) (order count : Nat)
    (occurrence : Section × Nat) : Node :=
  { element := e
    boundTo? := some occurrence.1
    order := order
    matchCount := count
    matchIndex := occurrence.2
    children := below occurrence.1 }

/-- The nodes of an element for the sections that it took. -/
def Element.nodes (e : Element) (below : Section → List Node) (order : Nat)
    (taken : List Section) : List Node :=
  if taken.isEmpty then (if e.isRequired then [e.unbound order] else [])
  else taken.zipIdx.map (e.node below order taken.length)

theorem Element.unbound_eq (e : Element) (order : Nat) :
    e.unbound order = ⟨e, none, order, 0, 0, unboundSiblings 0 e.children⟩ := by
  cases e; rfl

/-- There is no section below an element without one. -/
theorem boundSections_unboundSiblings (elements : List Element) : ∀ order,
    boundSections (unboundSiblings order elements) = [] := by
  induction elements using elements_induction with
  | nil => intro order; rfl
  | cons e es ihe ih =>
    intro order
    rw [unboundSiblings, boundSections_append, ih, List.append_nil]
    split_ifs
    · rw [boundSections_cons, e.unbound_eq]
      simp [ihe]
    · rfl

theorem boundSections_unbound (e : Element) (order : Nat) :
    boundSections [e.unbound order] = [] := by
  rw [boundSections_cons, e.unbound_eq]
  simp [boundSections_unboundSiblings]

theorem boundSections_map_node (e : Element) (below : Section → List Node) (order count : Nat)
    (taken : List Section) : ∀ index,
    boundSections ((taken.zipIdx index).map (e.node below order count)) =
      taken.flatMap fun s => s :: boundSections (below s) := by
  induction taken with
  | nil => intro index; rfl
  | cons s taken ih =>
    intro index
    rw [List.zipIdx_cons, List.map_cons, boundSections_cons, ih, List.flatMap_cons]
    simp [Element.node]

theorem boundSections_nodes (e : Element) (below : Section → List Node) (order : Nat)
    (taken : List Section) :
    boundSections (e.nodes below order taken) =
      taken.flatMap fun s => s :: boundSections (below s) := by
  unfold Element.nodes
  cases taken with
  | nil =>
    rw [if_pos List.isEmpty_nil]
    split_ifs
    · exact boundSections_unbound e order
    · rfl
  | cons s taken => exact boundSections_map_node e below order _ (s :: taken) 0

/-! ## Matching without a record -/

mutual

/-- The nodes of an element for the sections that it took, matched without a record. -/
def matchElement (accepts : Accepts) : Element → (order : Nat) → (taken : List Section) → List Node
  | ⟨heading, optional, count, severity, allowAdditional, rules, description, children⟩,
      order, taken =>
    let e : Element :=
      ⟨heading, optional, count, severity, allowAdditional, rules, description, children⟩
    e.nodes (fun s => matchSiblings accepts children 0 s.children 0) order taken

/-- The nodes of elements that are siblings, matched without a record of the bound sections. -/
def matchSiblings (accepts : Accepts) :
    List Element → (order : Nat) → (sections : List Section) → (after : Nat) → List Node
  | [], _, _, _ => []
  | e :: es, order, sections, after =>
    let taken := e.take accepts (sectionsAfter after sections)
    matchElement accepts e order taken ++
      matchSiblings accepts es (order + 1) sections (lastLine after taken)

end

variable (accepts : Accepts)

/-- The nodes below a section that an element took. -/
abbrev matchBelow (e : Element) (s : Section) : List Node :=
  matchSiblings accepts e.children 0 s.children 0

@[simp] theorem matchSiblings_nil (order : Nat) (sections : List Section) (after : Nat) :
    matchSiblings accepts [] order sections after = [] := rfl

theorem matchSiblings_cons (e : Element) (es : List Element) (order : Nat)
    (sections : List Section) (after : Nat) :
    matchSiblings accepts (e :: es) order sections after =
      e.nodes (matchBelow accepts e) order (e.take accepts (sectionsAfter after sections)) ++
        matchSiblings accepts es (order + 1) sections
          (lastLine after (e.take accepts (sectionsAfter after sections))) := by
  cases e; rfl

theorem flatMap_walk_sublist {taken : List Section} {below : Section → List Section}
    (h : ∀ s ∈ taken, (below s).Sublist (walkAll s.children)) :
    (taken.flatMap fun s => s :: below s).Sublist (walkAll taken) := by
  induction taken with
  | nil => exact List.Sublist.refl _
  | cons s taken ih =>
    rw [List.flatMap_cons, walkAll_cons, List.cons_append]
    exact ((h s List.mem_cons_self).append
      (ih fun t ht => h t (List.mem_cons_of_mem _ ht))).cons_cons s

/-- **The sections with a node come in the order of the walk, none of them twice.** -/
theorem boundSections_matchSiblings_sublist (elements : List Element) :
    ∀ (order : Nat) {sections : List Section} (after : Nat), Regular sections →
      (boundSections (matchSiblings accepts elements order sections after)).Sublist
        (walkAll (sectionsAfter after sections)) := by
  induction elements using elements_induction with
  | nil => intro order sections after _; exact List.nil_sublist _
  | cons e es ihe ih =>
    intro order sections after hreg
    have htaken := e.take_sublist accepts (sectionsAfter after sections)
    rw [matchSiblings_cons, boundSections_append, boundSections_nodes]
    refine List.Sublist.trans ?_
      (walkAll_sublist (append_sectionsAfter_sublist hreg.siblings htaken))
    rw [walkAll_append]
    refine (flatMap_walk_sublist fun s hs => ?_).append (ih _ _ hreg)
    have hs := (sectionsAfter_sublist after sections).subset (htaken.subset hs)
    exact (ihe 0 0 (hreg.children hs)).trans (walkAll_sublist (sectionsAfter_sublist 0 _))

theorem mem_walkAll_of_mem_boundSections {elements : List Element} {order : Nat}
    {sections : List Section} {after : Nat} (hreg : Regular sections) {s : Section}
    (h : s ∈ boundSections (matchSiblings accepts elements order sections after)) :
    s ∈ walkAll (sectionsAfter after sections) :=
  (boundSections_matchSiblings_sublist accepts elements order after hreg).subset h

/-! ## The record -/

/-- None of the sections is on record. -/
def Untouched (st : Progress) (sections : List Section) : Prop :=
  ∀ s ∈ walkAll sections, s.startLine ∉ st.bound

theorem Untouched.free_eq {st : Progress} {after : Nat} {sections : List Section}
    (h : Untouched st (sectionsAfter after sections)) :
    st.free after sections = sectionsAfter after sections := by
  refine List.filter_congr fun s hs => ?_
  by_cases hafter : after < s.startLine
  · have hfree : s.startLine ∉ st.bound :=
      h s ((sublist_walkAll _).subset (mem_sectionsAfter.2 ⟨hs, hafter⟩))
    simp [hafter, hfree]
  · simp [hafter]

/-- The subsections of a section that is bound are still not on record. -/
theorem Untouched.bind {st : Progress} {sections : List Section} (h : Untouched st sections)
    (hreg : Regular sections) {s : Section} (hs : s ∈ sections) :
    Untouched (st.bind s) s.children := by
  have hwalk : (walkAll [s]).Sublist (walkAll sections) :=
    walkAll_sublist (List.singleton_sublist.2 hs)
  have hinc := hreg.increasing.sublist hwalk
  rw [walkAll_cons, walkAll_nil, List.append_nil] at hwalk hinc
  intro t ht hmem
  rcases List.mem_cons.1 hmem with he | hmem
  · have := (List.pairwise_cons.1 hinc).1 t ht
    omega
  · exact h t (hwalk.subset (List.mem_cons_of_mem _ ht)) hmem

/-- The sections behind one that is bound are still not on record, if only it and sections in it
were recorded. -/
theorem Untouched.next {st st' : Progress} {s : Section} {taken : List Section}
    (h : Untouched st (s :: taken)) (hreg : Regular (s :: taken)) {below : List Section}
    (hsub : below.Sublist (walkAll s.children))
    (hrecord : st'.bound = (below.map Section.startLine).reverse ++ (st.bind s).bound) :
    Untouched st' taken := by
  have hinc := hreg.increasing
  rw [walkAll_cons, List.pairwise_cons, List.pairwise_append] at hinc
  obtain ⟨hs, -, -, hcross⟩ := hinc
  intro t ht hmem
  rw [hrecord, List.mem_append, List.mem_reverse, List.mem_map] at hmem
  rcases hmem with ⟨u, hu, he⟩ | hmem
  · have := hcross u (hsub.subset hu) t ht
    omega
  · rcases List.mem_cons.1 hmem with he | hmem
    · have := hs t (List.mem_append_right _ ht)
      omega
    · exact h t ((walkAll_sublist (List.sublist_cons_self s taken)).subset ht) hmem

/-- What an element leaves to its later siblings is not on record, if only what it took and sections
in it were recorded. -/
theorem Untouched.left {st st' : Progress} {after : Nat} {sections taken : List Section}
    (h : Untouched st (sectionsAfter after sections)) (hreg : Regular sections)
    (htaken : taken.Sublist (sectionsAfter after sections)) {below : Section → List Section}
    (hsub : ∀ s ∈ taken, (below s).Sublist (walkAll s.children))
    (hrecord : st'.bound =
      ((taken.flatMap fun s => s :: below s).map Section.startLine).reverse ++ st.bound) :
    Untouched st' (sectionsAfter (lastLine after taken) sections) := by
  have hsplit := walkAll_sublist (append_sectionsAfter_sublist hreg.siblings htaken)
  have hinc := hreg.increasing.sublist (walkAll_sublist (sectionsAfter_sublist after sections))
  have hinc := hinc.sublist hsplit
  rw [walkAll_append] at hsplit hinc
  intro t ht hmem
  rw [hrecord, List.mem_append, List.mem_reverse, List.mem_map] at hmem
  rcases hmem with ⟨u, hu, he⟩ | hmem
  · have := (List.pairwise_append.1 hinc).2.2 u ((flatMap_walk_sublist hsub).subset hu) t ht
    omega
  · exact h t (hsplit.subset (List.mem_append_right _ ht)) hmem

/-- A function that binds the subsections of a section records the sections of the nodes that it
gives, if none of them was on record. -/
def Records (bindBelow : List Section → Progress → List Node × Progress)
    (sections : List Section) (nodes : List Node) : Prop :=
  ∀ st, Untouched st sections → (bindBelow sections st).1 = nodes ∧
    (bindBelow sections st).2.bound =
      ((boundSections nodes).map Section.startLine).reverse ++ st.bound

theorem occurrences_eq {bindBelow : List Section → Progress → List Node × Progress}
    {e : Element} {below : Section → List Node} (order count : Nat) {taken : List Section} :
    ∀ (index : Nat) {st : Progress}, Regular taken → Untouched st taken →
      (∀ s ∈ taken, Records bindBelow s.children (below s)) →
      (∀ s ∈ taken, (boundSections (below s)).Sublist (walkAll s.children)) →
      (occurrences bindBelow e order count index taken st).1 =
          (taken.zipIdx index).map (e.node below order count) ∧
        (occurrences bindBelow e order count index taken st).2.bound =
          ((taken.flatMap fun s => s :: boundSections (below s)).map
            Section.startLine).reverse ++ st.bound := by
  induction taken with
  | nil => intro index st _ _ _ _; exact ⟨rfl, rfl⟩
  | cons s taken ih =>
    intro index st hreg hst hrec hsub
    obtain ⟨hnodes, hbound⟩ :=
      hrec s List.mem_cons_self _ (hst.bind hreg List.mem_cons_self)
    have hrest := hst.next hreg (hsub s List.mem_cons_self) hbound
    obtain ⟨hnodes', hbound'⟩ := ih (index + 1) (hreg.sublist (List.sublist_cons_self _ _)) hrest
      (fun t ht => hrec t (List.mem_cons_of_mem _ ht))
      (fun t ht => hsub t (List.mem_cons_of_mem _ ht))
    simp only [occurrences]
    constructor
    · rw [hnodes, hnodes', List.zipIdx_cons, List.map_cons]
      rfl
    · rw [hbound', hbound, List.flatMap_cons]
      simp [Progress.bind]

theorem bindElement_eq (e : Element) (order : Nat) (taken : List Section) (st : Progress) :
    bindElement accepts e order taken st =
      if taken.isEmpty then (if e.isRequired then [e.unbound order] else [], st)
      else occurrences (fun sections st => bindSiblings accepts e.children 0 sections 0 st) e order
        taken.length 0 taken st := by
  cases e; rfl

/-- What an element binds, if none of its sections was on record. -/
theorem bindElement_record {e : Element} (order : Nat) {taken : List Section} {st : Progress}
    (hreg : Regular taken) (hst : Untouched st taken)
    (hrec : ∀ s ∈ taken,
      Records (fun sections st => bindSiblings accepts e.children 0 sections 0 st) s.children
        (matchBelow accepts e s))
    (hsub : ∀ s ∈ taken, (boundSections (matchBelow accepts e s)).Sublist (walkAll s.children)) :
    (bindElement accepts e order taken st).1 = e.nodes (matchBelow accepts e) order taken ∧
      (bindElement accepts e order taken st).2.bound =
        ((taken.flatMap fun s => s :: boundSections (matchBelow accepts e s)).map
          Section.startLine).reverse ++ st.bound := by
  rw [bindElement_eq, Element.nodes]
  cases hempty : taken.isEmpty with
  | true =>
    rw [List.isEmpty_iff.1 hempty]
    exact ⟨rfl, rfl⟩
  | false => exact occurrences_eq order taken.length 0 hreg hst hrec hsub

/-- **The record is not needed**: none of the sections that are left is on it. -/
theorem bindSiblings_eq (elements : List Element) :
    ∀ (order : Nat) {sections : List Section} (after : Nat) {st : Progress}, Regular sections →
      Untouched st (sectionsAfter after sections) →
      (bindSiblings accepts elements order sections after st).1 =
          matchSiblings accepts elements order sections after ∧
        (bindSiblings accepts elements order sections after st).2.bound =
          ((boundSections (matchSiblings accepts elements order sections after)).map
            Section.startLine).reverse ++ st.bound := by
  induction elements using elements_induction with
  | nil => intro order sections after st _ _; exact ⟨rfl, rfl⟩
  | cons e es ihe ih =>
    intro order sections after st hreg hst
    have htaken := e.take_sublist accepts (sectionsAfter after sections)
    rw [matchSiblings_cons, boundSections_append, boundSections_nodes]
    simp only [bindSiblings, hst.free_eq]
    generalize e.take accepts (sectionsAfter after sections) = taken at htaken ⊢
    generalize hnote : st.note e.heading _ = noted
    have hbound : noted.bound = st.bound := by rw [← hnote]; rfl
    have hregSection : ∀ s ∈ taken, Regular s.children := fun s hs =>
      hreg.children ((sectionsAfter_sublist after sections).subset (htaken.subset hs))
    have hsub : ∀ s ∈ taken, (boundSections (matchBelow accepts e s)).Sublist
        (walkAll s.children) := fun s hs =>
      (boundSections_matchSiblings_sublist accepts e.children 0 0 (hregSection s hs)).trans
        (walkAll_sublist (sectionsAfter_sublist 0 _))
    -- what is bound here
    obtain ⟨hnodes, hrecord⟩ := bindElement_record accepts order
      (hreg.sublist (htaken.trans (sectionsAfter_sublist _ _)))
      (fun s hs => hbound ▸ hst s ((walkAll_sublist htaken).subset hs))
      (fun s hs st' hst' => ihe 0 0 (hregSection s hs)
        (by rwa [sectionsAfter_zero (hregSection s hs)])) hsub
    generalize bindElement accepts e order taken noted = here at hnodes hrecord ⊢
    rw [hbound] at hrecord
    obtain ⟨hnodes', hrecord'⟩ := ih (order + 1) (lastLine after taken) hreg
      (hst.left hreg htaken hsub hrecord)
    constructor
    · rw [hnodes, hnodes']
    · rw [hrecord', hrecord, List.map_append, List.reverse_append, List.append_assoc]

/-! ## Documents -/

section

variable {d : Document} (elements : List Element)

/-- **The nodes of a document are matched without a record.** -/
theorem bindDocument_roots (h : Regular d.sections) :
    (bindDocument accepts d elements).roots = matchSiblings accepts elements 0 d.sections 0 :=
  (bindSiblings_eq accepts elements 0 0 h fun _ _ => List.not_mem_nil).1

/-- The record of a document holds the lines of the sections with a node. -/
theorem bindDocument_bound (h : Regular d.sections) :
    (bindDocument accepts d elements).bound =
      ((boundSections (bindDocument accepts d elements).roots).map Section.startLine).reverse := by
  rw [bindDocument_roots accepts elements h]
  exact (bindSiblings_eq accepts elements 0 0 h fun _ _ => List.not_mem_nil).2.trans
    (List.append_nil _)

end

end Outline

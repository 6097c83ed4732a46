import Outline.Proofs.Binding.Each
import Outline.Proofs.Structure.Relaxed

/-!
# Sections grown from elements

The elements of a schema in a row, each with the level of its depth, give the sections of a document
their tree: **sections in a row with those levels nest as the elements do** (`grown_nest`), and each
element is bound to the section that was made for it (`Grown.of_mem_allNodes`).

* `rowsOf`: elements and those below them, in order, with their levels;
* `Grown`: sections that nest as elements do, each in a relation with its element.
-/

namespace Outline

/-! ## Rows -/

mutual

/-- An element and those below it, in order, with their levels. -/
def Element.rows (level : Nat) : Element → List (Nat × Element)
  | ⟨heading, optional, count, severity, allowAdditional, rules, description, children⟩ =>
    (level, ⟨heading, optional, count, severity, allowAdditional, rules, description, children⟩) ::
      rowsOf (level + 1) children

/-- Elements and those below them, in order, with their levels. -/
def rowsOf (level : Nat) : List Element → List (Nat × Element)
  | [] => []
  | e :: es => e.rows level ++ rowsOf level es

end

theorem rowsOf_cons (level : Nat) (e : Element) (es : List Element) :
    rowsOf level (e :: es) = (level, e) :: (rowsOf (level + 1) e.children ++ rowsOf level es) := by
  cases e
  rfl

theorem each_of_rowsOf {P : Element → Prop} (elements : List Element) : ∀ {level : Nat},
    (∀ row ∈ rowsOf level elements, P row.2) → EachElement P elements := by
  induction elements using elements_induction with
  | nil => exact fun _ => .nil
  | cons e es ihe ih =>
    intro level h
    rw [rowsOf_cons, List.forall_mem_cons, List.forall_mem_append] at h
    exact .cons h.1 (ihe h.2.1) (ih h.2.2)

theorem EachElement.forall_rowsOf {P : Element → Prop} {elements : List Element}
    (h : EachElement P elements) : ∀ level, ∀ row ∈ rowsOf level elements, P row.2 := by
  induction h with
  | nil => exact fun _ _ hrow => absurd hrow List.not_mem_nil
  | cons here _ _ ihe ih =>
    intro level
    rw [rowsOf_cons, List.forall_mem_cons, List.forall_mem_append]
    exact ⟨here, ihe (level + 1), ih level⟩

theorem mem_rowsOf {level : Nat} {elements : List Element} {e : Element} (h : e ∈ elements) :
    (level, e) ∈ rowsOf level elements := by
  induction elements with
  | nil => exact absurd h List.not_mem_nil
  | cons e' es ih =>
    rw [rowsOf_cons]
    rcases List.mem_cons.1 h with rfl | h
    · exact List.mem_cons_self
    · exact List.mem_cons_of_mem _ (List.mem_append_right _ (ih h))

/-! ## Nesting -/

/-- **Sections that nest as elements do**: as many of them, each in a relation with its element, and
with subsections that nest as the elements below it. -/
inductive Grown (Q : Element → Heading → Body → Prop) : List Element → List Section → Prop
  | nil : Grown Q [] []
  | cons {e : Element} {es : List Element} {s : Section} {ss : List Section}
      (here : Q e s.heading s.body) (below : Grown Q e.children s.children)
      (rest : Grown Q es ss) : Grown Q (e :: es) (s :: ss)

section

variable {α β γ : Type} {R : α → β → Prop}

theorem forall_mem_of_forall₂ {P : β → Prop} (hP : ∀ a b, R a b → P b) {l : List α} {r : List β}
    (h : List.Forall₂ R l r) : ∀ b ∈ r, P b := by
  induction h with
  | nil => exact fun _ h => absurd h List.not_mem_nil
  | cons hhead _ ih => exact List.forall_mem_cons.2 ⟨hP _ _ hhead, ih⟩

theorem forall₂_trans {S : β → γ → Prop} {T : α → γ → Prop} (hT : ∀ a b c, R a b → S b c → T a c)
    {l : List α} {m : List β} {r : List γ} (h : List.Forall₂ R l m) (h' : List.Forall₂ S m r) :
    List.Forall₂ T l r := by
  induction h generalizing r with
  | nil =>
    cases h'
    exact .nil
  | cons hhead _ ih =>
    cases h' with
    | cons hhead' htail' => exact .cons (hT _ _ _ hhead hhead') (ih htail')

theorem exists_append_of_forall₂ {l l' : List α} {r : List β}
    (h : List.Forall₂ R (l ++ l') r) :
    ∃ a b, r = a ++ b ∧ List.Forall₂ R l a ∧ List.Forall₂ R l' b := by
  induction l generalizing r with
  | nil => exact ⟨[], r, rfl, .nil, h⟩
  | cons x l ih =>
    cases h with
    | cons hx hrest =>
      obtain ⟨a, b, rfl, ha, hb⟩ := ih hrest
      exact ⟨_ :: a, b, rfl, .cons hx ha, hb⟩

end

/-- A section takes those behind it that are deeper, up to the first one that is not. -/
theorem adopt_append (s : Section) {deeper rest : List Section}
    (hdeeper : ∀ t ∈ deeper, s.heading.level < t.heading.level)
    (hrest : ∀ t ∈ rest.head?, t.heading.level ≤ s.heading.level) :
    adopt s (deeper ++ rest) = ⟨s.heading, s.body, deeper⟩ :: rest := by
  have htake : rest.takeWhile (fun t => s.heading.level < t.heading.level) = [] ∧
      rest.dropWhile (fun t => s.heading.level < t.heading.level) = rest := by
    cases rest with
    | nil => exact ⟨rfl, rfl⟩
    | cons t ts =>
      have ht : ¬ decide (s.heading.level < t.heading.level) = true := by
        simpa using hrest t rfl
      exact ⟨List.takeWhile_cons_of_neg ht, List.dropWhile_cons_of_neg ht⟩
  have hall : ∀ t ∈ deeper, decide (s.heading.level < t.heading.level) = true := fun t ht =>
    decide_eq_true (hdeeper t ht)
  unfold adopt
  dsimp only
  rw [List.takeWhile_append_of_pos hall, List.dropWhile_append_of_pos hall, htake.1, htake.2,
    List.append_nil]

variable {Q : Element → Heading → Body → Prop}

/-- A section made for an element in a row. -/
def MadeFor (Q : Element → Heading → Body → Prop) (row : Nat × Element) (s : Section) : Prop :=
  s.heading.level = row.1 ∧ Q row.2 s.heading s.body

/-- Sections in a row nest before others that are not deeper. -/
theorem grown_foldr (elements : List Element) : ∀ {level : Nat} {flat rest : List Section},
    List.Forall₂ (MadeFor Q) (rowsOf level elements) flat →
    (∀ t ∈ rest.head?, t.heading.level ≤ level) →
    ∃ ss, flat.foldr adopt rest = ss ++ rest ∧ Grown Q elements ss ∧
      ∀ s ∈ ss, s.heading.level = level := by
  -- The sections for the elements behind nest first; those below then stand before them, and end
  -- where the next one is not deeper.
  induction elements using elements_induction with
  | nil =>
    intro level flat rest h _
    cases h
    exact ⟨[], rfl, .nil, fun _ h => absurd h List.not_mem_nil⟩
  | cons e es ihe ih =>
    intro level flat rest h hrest
    rw [rowsOf_cons] at h
    cases h with
    | @cons _ s _ more hs hmore =>
      obtain ⟨below, behind, rfl, hbelow, hbehind⟩ := exists_append_of_forall₂ hmore
      obtain ⟨ss, hss, hgrown, hlevels⟩ := ih hbehind hrest
      have hfront : ∀ t ∈ (ss ++ rest).head?, t.heading.level ≤ level := by
        cases ss with
        | nil => exact hrest
        | cons t ts => exact fun u hu => Option.mem_some.1 hu ▸ (hlevels t List.mem_cons_self).le
      obtain ⟨subs, hsubs, hgrown', hlevels'⟩ :=
        ihe hbelow fun t ht => (hfront t ht).trans (Nat.le_succ level)
      have hadopt : adopt s (subs ++ (ss ++ rest)) = ⟨s.heading, s.body, subs⟩ :: (ss ++ rest) :=
        adopt_append s (fun t ht => by rw [hlevels' t ht, hs.1]; exact Nat.lt_succ_self level)
          (hs.1 ▸ hfront)
      refine ⟨⟨s.heading, s.body, subs⟩ :: ss, ?_, .cons hs.2 hgrown' hgrown,
        List.forall_mem_cons.2 ⟨hs.1, hlevels⟩⟩
      rw [List.foldr_cons, List.foldr_append, hss, hsubs, hadopt, List.cons_append]

/-- **Sections in a row with the levels of elements nest as the elements do.** -/
theorem grown_nest {elements : List Element} {level : Nat} {flat : List Section}
    (h : List.Forall₂ (MadeFor Q) (rowsOf level elements) flat) :
    Grown Q elements (nest flat) := by
  have hnone : ∀ t ∈ ([] : List Section).head?, t.heading.level ≤ level :=
    fun _ h => absurd h (by simp)
  obtain ⟨ss, hss, hgrown, -⟩ := grown_foldr elements h hnone
  rwa [nest, hss, List.append_nil]

/-! ## Binding -/

variable {accepts : Accepts}

theorem Grown.sameShape (hQ : ∀ e h b, Q e h b → accepts e.heading h = true)
    {elements : List Element} {sections : List Section} (h : Grown Q elements sections) :
    SameShape accepts elements sections := by
  induction h with
  | nil => exact .nil
  | cons here _ _ ihbelow ihrest => exact .cons (hQ _ _ _ here) ihbelow ihrest

/-- **Each element is bound to the section that was made for it.** -/
theorem Grown.of_mem_allNodes (hQ : ∀ e h b, Q e h b → accepts e.heading h = true)
    {elements : List Element} : ∀ (order : Nat) {sections : List Section} (after : Nat),
    EachElement (·.isRepeatable = false) elements → Regular sections →
      Grown Q elements (sectionsAfter after sections) →
      ∀ n ∈ allNodes (matchSiblings accepts elements order sections after),
        ∃ s, n.boundTo? = some s ∧ Q n.element s.heading s.body := by
  induction elements using elements_induction with
  | nil => intro order sections after _ _ _ n hn; exact absurd hn List.not_mem_nil
  | cons e es ihe ih =>
    intro order sections after hsingle hreg hgrown n hn
    generalize hfree : sectionsAfter after sections = free at hgrown
    cases hsingle with
    | cons hhere hbelow hrest =>
      cases hgrown with
      | @cons _ _ s ss here below rest =>
        have hs : s ∈ sections :=
          (sectionsAfter_sublist after sections).subset (hfree ▸ List.mem_cons_self)
        rw [matchSiblings_first hhere hfree (hQ _ _ _ here), allNodes_cons, List.mem_cons,
          List.mem_append] at hn
        rcases hn with rfl | hn | hn
        · exact ⟨s, rfl, here⟩
        · refine ihe 0 0 hbelow (hreg.children hs) ?_ n hn
          rwa [sectionsAfter_zero (hreg.children hs)]
        · refine ih (order + 1) s.startLine hrest hreg ?_ n hn
          rwa [sectionsAfter_first hreg.siblings hfree]

/-! ## Shapes -/

/-- Elements without counts are relaxed ones of some that have to occur exactly once. -/
theorem exists_plain {elements : List Element} (h : EachElement (·.count = none) elements) :
    ∃ strict, Plain strict ∧ Looser strict elements := by
  induction h with
  | nil => exact ⟨[], .nil, .nil⟩
  | @cons e es here _ _ ihbelow ihrest =>
    obtain ⟨below, hplain, hlooser⟩ := ihbelow
    obtain ⟨rest, hplain', hlooser'⟩ := ihrest
    refine ⟨{ e with optional := false, allowAdditional := false, children := below } :: rest,
      .cons ?_ ?_ rfl hplain hplain', .cons ⟨rfl, rfl, rfl, rfl, nofun, nofun, ?_⟩ hlooser hlooser'⟩
    · simp [Element.isRequired, Element.least, here]
      decide
    · simp [Element.isRepeatable, here]
    · dsimp only
      rw [here]
      exact .none

theorem SameShape.of_looser {strict elements : List Element} (h : Looser strict elements) :
    ∀ {sections : List Section}, SameShape accepts elements sections →
      SameShape accepts strict sections := by
  induction h with
  | nil => exact fun hshape => hshape
  | cons here _ _ ihbelow ihrest =>
    rintro _ (_ | ⟨haccepts, hbelow, hrest⟩)
    exact .cons (here.heading ▸ haccepts) (ihbelow hbelow) (ihrest hrest)

/-- **There are no findings in a document of the shape of the schema**, if no element has a
count. -/
theorem structureFindings_eq_nil_of_sameShape {d : Document} {elements : List Element}
    (hreg : Regular d.sections) (hcount : EachElement (·.count = none) elements)
    (hshape : SameShape accepts elements d.sections) :
    structureFindings accepts (bindDocument accepts d elements) d elements = [] := by
  -- Strict elements are known to leave no findings in their shape, and relaxed ones leave no more.
  obtain ⟨strict, hplain, hlooser⟩ := exists_plain hcount
  have hstrict := (structureFindings_eq_nil_iff accepts hreg hplain).2 (hshape.of_looser hlooser)
  have hlength := length_structureFindings_relaxed accepts hreg hlooser
  rw [hstrict] at hlength
  exact List.length_eq_zero_iff.1 (Nat.le_zero.1 hlength)

end Outline

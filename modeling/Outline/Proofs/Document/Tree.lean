import Mathlib.Data.List.Nodup
import Outline.Document.Basic

/-!
# Trees of sections

The walk over the sections of a document, and what holds of the sections of every document that was
read: they begin at increasing lines, and a subsection is deeper than the section that it lies in
(**`Regular`**). In regular sections the line where a section begins tells which section it is, and
where it lies (`Regular.placed_eq`).

* `sections_induction`: induction over trees of sections;
* `walkAll_sublist`: fewer sections have fewer sections in them;
* `mem_walkAllUnder_children`: a subsection lies in the section and all that it lies in;
* `linked_of_mem_walkAllUnder`: a section is a subsection of the one that it lies in.
-/

namespace Outline

/-! ## Induction -/

mutual

theorem children_induction {P : List Section → Prop} (nil : P [])
    (cons : ∀ s rest, P s.children → P rest → P (s :: rest)) : ∀ s : Section, P s.children
  | ⟨_, _, children⟩ => sections_induction nil cons children

/-- Induction over trees of sections. -/
@[elab_as_elim]
theorem sections_induction {P : List Section → Prop} (nil : P [])
    (cons : ∀ s rest, P s.children → P rest → P (s :: rest)) : ∀ sections, P sections
  | [] => nil
  | s :: rest =>
    cons s rest (children_induction nil cons s) (sections_induction nil cons rest)

end

/-! ## Walks -/

@[simp] theorem walkAll_nil : walkAll [] = [] := rfl

@[simp] theorem walkAll_cons (s : Section) (rest : List Section) :
    walkAll (s :: rest) = s :: (walkAll s.children ++ walkAll rest) := by
  cases s; rfl

@[simp] theorem walkAllUnder_nil (around : List Section) : walkAllUnder around [] = [] := rfl

@[simp] theorem walkAllUnder_cons (around : List Section) (s : Section) (rest : List Section) :
    walkAllUnder around (s :: rest) =
      ⟨s, around⟩ :: (walkAllUnder (s :: around) s.children ++ walkAllUnder around rest) := by
  cases s; rfl

theorem walkAll_append (l l' : List Section) : walkAll (l ++ l') = walkAll l ++ walkAll l' := by
  induction l with
  | nil => rfl
  | cons s l ih => simp [ih]

theorem walkAll_sublist {l l' : List Section} (h : l.Sublist l') :
    (walkAll l).Sublist (walkAll l') := by
  induction h with
  | slnil => exact List.Sublist.refl _
  | cons s _ ih =>
    rw [walkAll_cons, ← List.cons_append]
    exact ih.trans (List.sublist_append_right _ _)
  | cons_cons s _ ih =>
    rw [walkAll_cons, walkAll_cons]
    exact (ih.append_left _).cons_cons s

theorem sublist_walkAll (sections : List Section) : sections.Sublist (walkAll sections) := by
  induction sections with
  | nil => exact List.Sublist.refl _
  | cons s rest ih =>
    rw [walkAll_cons]
    exact (ih.trans (List.sublist_append_right _ _)).cons_cons s

theorem walkAll_children_sublist {s : Section} {sections : List Section} (h : s ∈ sections) :
    (walkAll s.children).Sublist (walkAll sections) := by
  have hs : (walkAll [s]).Sublist (walkAll sections) :=
    walkAll_sublist (List.singleton_sublist.2 h)
  rw [walkAll_cons, walkAll_nil, List.append_nil] at hs
  exact (List.sublist_cons_self _ _).trans hs

/-- The walk over a section of the tree is a part of the walk over all of it. -/
theorem walkAll_singleton_sublist {s : Section} {sections : List Section}
    (h : s ∈ walkAll sections) : (walkAll [s]).Sublist (walkAll sections) := by
  induction sections using sections_induction with
  | nil => exact absurd h List.not_mem_nil
  | cons t rest iht ih =>
    rw [walkAll_cons, List.mem_cons, List.mem_append] at h
    rw [walkAll_cons t rest]
    rcases h with rfl | h | h
    · rw [walkAll_cons, walkAll_nil, List.append_nil]
      exact (List.sublist_append_left _ _).cons_cons s
    · exact ((iht h).trans (List.sublist_append_left _ _)).cons _
    · exact ((ih h).trans (List.sublist_append_right _ _)).cons _

/-- A walk that notes where sections lie meets the same sections. -/
theorem map_self_walkAllUnder (sections : List Section) : ∀ around,
    (walkAllUnder around sections).map PlacedSection.self = walkAll sections := by
  induction sections using sections_induction with
  | nil => intro around; rfl
  | cons s rest ihs ih =>
    intro around
    simp [ihs, ih]

theorem self_mem_walkAll {around sections : List Section} {p : PlacedSection}
    (h : p ∈ walkAllUnder around sections) : p.self ∈ walkAll sections := by
  rw [← map_self_walkAllUnder sections around]
  exact List.mem_map_of_mem h

/-- Sections at the top lie in nothing else. -/
theorem mem_walkAllUnder_of_mem {sections : List Section} {s : Section} (h : s ∈ sections)
    (around : List Section) : ⟨s, around⟩ ∈ walkAllUnder around sections := by
  induction sections with
  | nil => exact absurd h List.not_mem_nil
  | cons t rest ih =>
    rw [walkAllUnder_cons]
    rcases List.mem_cons.1 h with rfl | h
    · exact List.mem_cons_self
    · exact List.mem_cons_of_mem _ (List.mem_append_right _ (ih h))

theorem walkAllUnder_children_sublist {sections : List Section} {s : Section} (h : s ∈ sections)
    (around : List Section) :
    (walkAllUnder (s :: around) s.children).Sublist (walkAllUnder around sections) := by
  induction sections with
  | nil => exact absurd h List.not_mem_nil
  | cons t rest ih =>
    rw [walkAllUnder_cons]
    rcases List.mem_cons.1 h with rfl | h
    · exact (List.sublist_append_left _ _).cons _
    · exact ((ih h).trans (List.sublist_append_right _ _)).cons _

/-- A subsection lies in the section and in all that the section lies in. -/
theorem mem_walkAllUnder_children {sections : List Section} : ∀ {around : List Section}
    {p : PlacedSection}, p ∈ walkAllUnder around sections → ∀ {t : Section}, t ∈ p.self.children →
      ⟨t, p.self :: p.ancestors⟩ ∈ walkAllUnder around sections := by
  induction sections using sections_induction with
  | nil => intro _ _ h; exact absurd h List.not_mem_nil
  | cons s rest ihs ih =>
    intro around p h t ht
    rw [walkAllUnder_cons, List.mem_cons, List.mem_append] at h
    rw [walkAllUnder_cons]
    refine List.mem_cons_of_mem _ (List.mem_append.2 ?_)
    rcases h with rfl | h | h
    · exact Or.inl (mem_walkAllUnder_of_mem ht _)
    · exact Or.inl (ihs h ht)
    · exact Or.inr (ih h ht)

/-- **A section stands at the top, or is a subsection of the one that it lies in**, which is met
too. -/
theorem linked_of_mem_walkAllUnder {sections : List Section} : ∀ {around : List Section}
    {p : PlacedSection}, p ∈ walkAllUnder around sections →
      (p.ancestors = around ∧ p.self ∈ sections) ∨
        ∃ q ∈ walkAllUnder around sections, p.ancestors = q.self :: q.ancestors ∧
          p.self ∈ q.self.children := by
  induction sections using sections_induction with
  | nil => intro _ _ h; exact absurd h List.not_mem_nil
  | cons s rest ihs ih =>
    intro around p h
    rw [walkAllUnder_cons, List.mem_cons, List.mem_append] at h
    rw [walkAllUnder_cons]
    rcases h with rfl | h | h
    · exact Or.inl ⟨rfl, List.mem_cons_self⟩
    · rcases ihs h with ⟨ha, hs⟩ | ⟨q, hq, ha, hs⟩
      · exact Or.inr ⟨⟨s, around⟩, List.mem_cons_self, ha, hs⟩
      · exact Or.inr ⟨q, List.mem_cons_of_mem _ (List.mem_append_left _ hq), ha, hs⟩
    · rcases ih h with ⟨ha, hs⟩ | ⟨q, hq, ha, hs⟩
      · exact Or.inl ⟨ha, List.mem_cons_of_mem _ hs⟩
      · exact Or.inr ⟨q, List.mem_cons_of_mem _ (List.mem_append_right _ hq), ha, hs⟩

theorem mem_walkAll_children {sections : List Section} {s t : Section} (hs : s ∈ walkAll sections)
    (ht : t ∈ s.children) : t ∈ walkAll sections := by
  rw [← map_self_walkAllUnder sections []] at hs
  obtain ⟨p, hp, rfl⟩ := List.mem_map.1 hs
  exact self_mem_walkAll (mem_walkAllUnder_children hp ht)

/-- What a section of the walk lies in belongs to the walk, or stands around all of it. -/
theorem mem_walkAll_of_ancestor {sections : List Section} : ∀ {around : List Section}
    {p : PlacedSection}, p ∈ walkAllUnder around sections → ∀ t ∈ p.ancestors,
      t ∈ walkAll sections ∨ t ∈ around := by
  induction sections using sections_induction with
  | nil => intro _ _ h; exact absurd h List.not_mem_nil
  | cons s rest ihs ih =>
    intro around p h t ht
    rw [walkAllUnder_cons, List.mem_cons, List.mem_append] at h
    rw [walkAll_cons, List.mem_cons, List.mem_append]
    rcases h with rfl | h | h
    · exact Or.inr ht
    · rcases ihs h t ht with ht | ht
      · exact Or.inl (Or.inr (Or.inl ht))
      · rcases List.mem_cons.1 ht with rfl | ht
        · exact Or.inl (Or.inl rfl)
        · exact Or.inr ht
    · exact (ih h t ht).imp_left fun ht => Or.inr (Or.inr ht)

/-! ## Regular sections -/

/-- **Sections as they are read**: in the order of the document they begin at increasing lines, at
their headings, and subsections are deeper than the section that they lie in. -/
structure Regular (sections : List Section) : Prop where
  increasing : (walkAll sections).Pairwise fun s t => s.startLine < t.startLine
  positive : ∀ s ∈ walkAll sections, 0 < s.startLine
  atHeading : ∀ s ∈ walkAll sections, s.heading.line = s.startLine
  deeper : ∀ s ∈ walkAll sections, ∀ t ∈ s.children, s.heading.level < t.heading.level

namespace Regular

variable {sections l : List Section}

theorem of_walk_sublist (h : Regular sections) (hl : (walkAll l).Sublist (walkAll sections)) :
    Regular l where
  increasing := h.increasing.sublist hl
  positive s hs := h.positive s (hl.subset hs)
  atHeading s hs := h.atHeading s (hl.subset hs)
  deeper s hs := h.deeper s (hl.subset hs)

theorem sublist (h : Regular sections) (hl : l.Sublist sections) : Regular l :=
  h.of_walk_sublist (walkAll_sublist hl)

theorem children (h : Regular sections) {s : Section} (hs : s ∈ sections) : Regular s.children :=
  h.of_walk_sublist (walkAll_children_sublist hs)

theorem single (h : Regular sections) {s : Section} (hs : s ∈ walkAll sections) : Regular [s] :=
  h.of_walk_sublist (walkAll_singleton_sublist hs)

/-- The subsections of a section of the tree are regular. -/
theorem below (h : Regular sections) {s : Section} (hs : s ∈ walkAll sections) :
    Regular s.children :=
  (h.single hs).children List.mem_cons_self

/-- A subsection begins behind the section that it lies in. -/
theorem startLine_lt (h : Regular sections) {s t : Section} (hs : s ∈ walkAll sections)
    (ht : t ∈ s.children) : s.startLine < t.startLine := by
  have hwalk := (h.single hs).increasing
  rw [walkAll_cons, walkAll_nil, List.append_nil] at hwalk
  exact List.rel_of_pairwise_cons hwalk ((sublist_walkAll _).subset ht)

theorem siblings (h : Regular sections) : sections.Pairwise fun s t => s.startLine < t.startLine :=
  h.increasing.sublist (sublist_walkAll sections)

theorem nodup_lines (h : Regular sections) : ((walkAll sections).map Section.startLine).Nodup :=
  List.pairwise_map.2 (h.increasing.imp Nat.ne_of_lt)

theorem nodup (h : Regular sections) : (walkAll sections).Nodup := h.nodup_lines.of_map

/-- The line where a section begins tells which section it is. -/
theorem eq_of_startLine (h : Regular sections) {s t : Section} (hs : s ∈ walkAll sections)
    (ht : t ∈ walkAll sections) (he : s.startLine = t.startLine) : s = t :=
  List.inj_on_of_nodup_map h.nodup_lines hs ht he

/-- The line where a section begins tells where it lies. -/
theorem placed_eq (h : Regular sections) {around : List Section} {p q : PlacedSection}
    (hp : p ∈ walkAllUnder around sections) (hq : q ∈ walkAllUnder around sections)
    (he : p.self.startLine = q.self.startLine) : p = q := by
  have hnodup : ((walkAllUnder around sections).map (·.self.startLine)).Nodup := by
    rw [← Function.comp_def Section.startLine PlacedSection.self, ← List.map_map,
      map_self_walkAllUnder]
    exact h.nodup_lines
  exact List.inj_on_of_nodup_map hnodup hp hq he

/-- Sections with a common subsection are the same. -/
theorem parent_eq (h : Regular sections) {s t u : Section} (hs : s ∈ walkAll sections)
    (ht : t ∈ walkAll sections) (hus : u ∈ s.children) (hut : u ∈ t.children) : s = t := by
  rw [← map_self_walkAllUnder sections []] at hs ht
  obtain ⟨p, hp, rfl⟩ := List.mem_map.1 hs
  obtain ⟨q, hq, rfl⟩ := List.mem_map.1 ht
  have he := h.placed_eq (mem_walkAllUnder_children hp hus) (mem_walkAllUnder_children hq hut) rfl
  exact (List.cons.inj (congrArg PlacedSection.ancestors he)).1

/-- A section at the top lies in no other one. -/
theorem not_mem_children (h : Regular sections) {s t : Section} (hs : s ∈ sections)
    (ht : t ∈ walkAll sections) : s ∉ t.children := by
  intro hst
  rw [← map_self_walkAllUnder sections []] at ht
  obtain ⟨p, hp, rfl⟩ := List.mem_map.1 ht
  have he := h.placed_eq (mem_walkAllUnder_of_mem hs []) (mem_walkAllUnder_children hp hst) rfl
  exact absurd (congrArg PlacedSection.ancestors he).symm (List.cons_ne_nil _ _)

end Regular

end Outline

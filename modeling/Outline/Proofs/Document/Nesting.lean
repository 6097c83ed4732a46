import Outline.Proofs.Document.Lines

/-!
# Nesting

Sections in a row nest by their levels. The walk over the tree gives the row back, and **a section
lies in the last one before it that has a smaller level** (`parents_nest`), or in none if there is
no such section. So the tree of a document is known from the row of its headings
(**`nestedByLevel_sectionsOf`**).

* `lastShallower?`: the last one of some sections that has a smaller level;
* `ParentsShallower`: sections that lie where their levels say;
* `NestedByLevel`: the tree of a row of headings.
-/

namespace Outline

open Markdown (Event eventLines)

/-! ## Where sections lie -/

/-- Sections lie in what stands around all of them as well. -/
theorem walkAllUnder_append (sections : List Section) : ∀ around outer : List Section,
    walkAllUnder (around ++ outer) sections =
      (walkAllUnder around sections).map fun p => ⟨p.self, p.ancestors ++ outer⟩ := by
  induction sections using sections_induction with
  | nil => intro around outer; rfl
  | cons s rest ihs ih =>
    intro around outer
    rw [walkAllUnder_cons, walkAllUnder_cons, List.map_cons, List.map_append, ← ih, ← ihs,
      List.cons_append]

theorem walkAllUnder_append_sections (around l l' : List Section) :
    walkAllUnder around (l ++ l') = walkAllUnder around l ++ walkAllUnder around l' := by
  induction l with
  | nil => rfl
  | cons s l ih => simp [ih]

/-! ## Levels -/

/-- The last one of some sections that has a smaller level. -/
def lastShallower? (level : Nat) (before : List Section) : Option Section :=
  before.reverse.find? fun s => s.heading.level < level

theorem lastShallower?_cons (level : Nat) (s : Section) (before : List Section) :
    lastShallower? level (s :: before) =
      (lastShallower? level before).or (if s.heading.level < level then some s else none) := by
  unfold lastShallower?
  rw [List.reverse_cons, List.find?_append, List.find?_cons]
  split_ifs with h
  · simp [h]
  · simp [h]

theorem le_of_lastShallower?_eq_none {level : Nat} {before : List Section}
    (h : lastShallower? level before = none) : ∀ s ∈ before, level ≤ s.heading.level := by
  intro s hs
  have := List.find?_eq_none.1 h s (List.mem_reverse.2 hs)
  simpa using this

/-- **Sections that lie where their levels say**: each in the last section before it that has a
smaller level, or in none if there is no such section. -/
def ParentsShallower (sections : List Section) : Prop :=
  ∀ (i : Nat) (p : PlacedSection), (walkAllUnder [] sections)[i]? = some p →
    p.ancestors.head? = lastShallower? p.self.heading.level ((walkAll sections).take i)

/-- A section with deeper ones in it, in front of others that begin with one that is not deeper. -/
theorem ParentsShallower.cons {s : Section} {rest : List Section}
    (h : ParentsShallower (s.children ++ rest))
    (hdeeper : ∀ t ∈ s.children, s.heading.level < t.heading.level)
    (hrest : ∀ t ∈ rest.head?, t.heading.level ≤ s.heading.level) :
    ParentsShallower (s :: rest) := by
  intro i p hp
  have hunder : walkAllUnder [s] s.children =
      (walkAllUnder [] s.children).map fun q => ⟨q.self, q.ancestors ++ [s]⟩ :=
    walkAllUnder_append s.children [] [s]
  rw [walkAllUnder_cons, hunder] at hp
  cases i with
  | zero =>
    obtain rfl : ⟨s, []⟩ = p := Option.some.inj hp
    rfl
  | succ j =>
    rw [List.getElem?_cons_succ, List.getElem?_append, List.length_map] at hp
    have hj := h j
    rw [walkAllUnder_append_sections, walkAll_append, List.getElem?_append] at hj
    rw [walkAll_cons, List.take_succ_cons, lastShallower?_cons]
    split_ifs at hp hj with hlt
    · -- a section in `s`: those before it in `s` come first, and then `s` itself
      rw [List.getElem?_map, Option.map_eq_some_iff] at hp
      obtain ⟨q, hq, rfl⟩ := hp
      rw [← hj q hq]
      have hmem := List.mem_of_getElem? hq
      rcases linked_of_mem_walkAllUnder hmem with ⟨hnone, hself⟩ | ⟨t, -, ht, -⟩
      · rw [hnone, if_pos (hdeeper q.self hself)]
        rfl
      · rw [ht]
        rfl
    · -- a section behind those in `s`
      rw [← hj p hp]
      cases hparent : p.ancestors.head? with
      | some t => rfl
      | none =>
        -- it is no deeper than the first one behind `s`, which is no deeper than `s`
        have hle : p.self.heading.level ≤ s.heading.level := by
          rw [hj p hp] at hparent
          cases rest with
          | nil => cases hp
          | cons t ts =>
            have hts : t.heading.level ≤ s.heading.level := hrest t rfl
            have hlength : (walkAllUnder [] s.children).length = (walkAll s.children).length := by
              rw [← map_self_walkAllUnder s.children [], List.length_map]
            rw [hlength] at hp hlt
            rcases Nat.eq_zero_or_pos (j - (walkAll s.children).length) with hzero | hpos
            · rw [hzero, walkAllUnder_cons] at hp
              obtain rfl : ⟨t, []⟩ = p := Option.some.inj hp
              exact hts
            · have hmem : t ∈ (walkAll s.children ++ walkAll (t :: ts)).take j := by
                rw [List.take_append, List.take_of_length_le (Nat.not_lt.1 hlt), walkAll_cons,
                  ← Nat.succ_pred_eq_of_pos hpos, List.take_succ_cons]
                exact List.mem_append_right _ List.mem_cons_self
              exact Nat.le_trans (le_of_lastShallower?_eq_none hparent t hmem) hts
        rw [if_neg (Nat.not_lt.2 hle)]
        rfl

/-- **Sections in a row nest so that each lies where the levels say.** -/
theorem parents_nest (sections : List Section) : ParentsShallower (nest sections) := by
  induction sections with
  | nil => intro i p hp; cases hp
  | cons s rest ih =>
    have hnest : nest (s :: rest) = adopt s (nest rest) := rfl
    rw [hnest]
    refine ParentsShallower.cons (s := ⟨s.heading, s.body, _⟩) ?_ (fun t ht => ?_) fun t ht => ?_
    · rwa [List.takeWhile_append_dropWhile]
    · have hdeeper := List.mem_takeWhile_imp ht
      exact of_decide_eq_true hdeeper
    · have hhead := List.head?_dropWhile_not
        (fun t : Section => decide (s.heading.level < t.heading.level)) (nest rest)
      rw [Option.mem_def.1 ht] at hhead
      exact Nat.not_lt.1 (of_decide_eq_false hhead)

/-! ## The tree of a row of headings -/

/-- **The tree of a row of headings**, each given by its level, its text and its line: the walk over
the tree has one section for each heading, in order; each section is a subsection of the last one
before it that has a smaller level, and stands at the top if there is no such section; subsections
are deeper than the section that they lie in; and lines increase along the walk, among the sections
at the top and among those of each section. -/
structure NestedByLevel (marks : List (Nat × String × Nat)) (sections : List Section) : Prop where
  listed : (walkAll sections).map Section.mark = marks
  placed : (walkAllUnder [] sections).map PlacedSection.self = walkAll sections
  parents : ParentsShallower sections
  linked : ∀ p ∈ walkAllUnder [] sections,
    match p.ancestors.head? with
    | none => p.self ∈ sections
    | some s => s ∈ walkAll sections ∧ p.self ∈ s.children
  deeper : ∀ s ∈ walkAll sections, ∀ t ∈ s.children, s.heading.level < t.heading.level
  increasing : (walkAll sections).Pairwise fun s t => s.startLine < t.startLine
  siblings : sections.Pairwise (fun s t => s.startLine < t.startLine) ∧
    ∀ s ∈ walkAll sections, s.children.Pairwise fun s t => s.startLine < t.startLine

/-- **Headings at increasing lines nest by their levels.** -/
theorem nestedByLevel_sectionsOf (lines : List (List Char)) {events : List Event}
    (h : (eventLines events).Pairwise (· < ·)) :
    NestedByLevel (eventMarks events) (sectionsOf lines events).2 := by
  have hreg := regular_sectionsOf lines h
  have hnest :
      (sectionsOf lines events).2 = nest (flatSections lines (gather lines events).2) := rfl
  refine ⟨?_, map_self_walkAllUnder _ [], hnest ▸ parents_nest _, fun p hp => ?_, hreg.deeper,
    hreg.increasing, hreg.siblings, fun s hs => ?_⟩
  · rw [hnest, map_nest fun _ => rfl, map_mark_flatSections, map_mark_gather]
  · rcases linked_of_mem_walkAllUnder hp with ⟨hnone, hself⟩ | ⟨q, hq, hsome, hself⟩
    · rw [hnone]
      exact hself
    · rw [hsome]
      exact ⟨self_mem_walkAll hq, hself⟩
  · exact (hreg.below hs).siblings

/-- Headings that begin deep, skip levels, and come back to the first level. -/
def deepEvents : List Event :=
  [.heading 3 0 1 [.text ['A']], .heading 2 2 4 [.text ['B']], .heading 4 4 5 [.text ['C']],
    .heading 3 6 7 [.text ['D']], .heading 1 8 9 [.text ['E']], .heading 2 9 10 [.text ['F']]]

theorem nestedByLevel_deep : (eventLines deepEvents).Pairwise (· < ·) ∧
    NestedByLevel (eventMarks deepEvents) (sectionsOf [] deepEvents).2 :=
  ⟨by decide, nestedByLevel_sectionsOf [] (by decide)⟩

end Outline

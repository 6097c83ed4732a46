import Outline.Binding.Basic
import Outline.Proofs.Document.Tree

/-!
# Sections that an element takes

An element takes the first sections that its heading accepts, no more than its bound
(`Element.take_sublist`, `Element.length_take_le`), and none only if there is none to take
(`Element.take_eq_nil_iff`). What it takes begins after the sections taken before it, and **what is
left for its later siblings begins after what it took** (`append_sectionsAfter_sublist`).

* `sectionsAfter`: the sections that begin after a line.
-/

namespace Outline

/-! ## Taking -/

theorem Element.most_ne_zero (e : Element) : e.most ≠ some 0 := by
  unfold most
  split
  · split_ifs with h
    · exact Option.some_ne_none _ ∘ Eq.symm
    · exact fun he => h (Option.some.inj he)
  · exact fun he => Nat.one_ne_zero (Option.some.inj he)

/-- An element that may not occur more than once takes at most one section. -/
theorem Element.most_of_not_isRepeatable {e : Element} (h : e.isRepeatable = false) :
    e.most = some 1 := by
  unfold isRepeatable at h
  unfold most
  cases hc : e.count with
  | none => rfl
  | some bounds =>
    rw [hc] at h
    have hmax : bounds.max.value = 1 := by simpa using h
    simp [hmax]

section

variable (accepts : Accepts) (e : Element) (free : List Section)

theorem Element.take_sublist_filter :
    (e.take accepts free).Sublist (free.filter fun s => accepts e.heading s.heading) := by
  unfold take takeMatching
  split
  · exact List.take_sublist _ _
  · exact List.Sublist.refl _

theorem Element.take_sublist : (e.take accepts free).Sublist free :=
  (e.take_sublist_filter accepts free).trans List.filter_sublist

variable {accepts e free}

theorem Element.accepts_of_mem_take {s : Section} (h : s ∈ e.take accepts free) :
    accepts e.heading s.heading = true :=
  (List.mem_filter.1 ((e.take_sublist_filter accepts free).subset h)).2

theorem Element.length_take_le {n : Nat} (h : e.most = some n) :
    (e.take accepts free).length ≤ n := by
  unfold take takeMatching
  rw [h]
  exact List.length_take_le _ _

/-- An element takes nothing only if its heading accepts nothing. -/
theorem Element.take_eq_nil_iff :
    e.take accepts free = [] ↔ ∀ s ∈ free, accepts e.heading s.heading = false := by
  have hfilter : free.filter (fun s => accepts e.heading s.heading) = [] ↔
      ∀ s ∈ free, accepts e.heading s.heading = false := by
    simp [List.filter_eq_nil_iff]
  rw [← hfilter]
  unfold take takeMatching
  split
  · rename_i n hn
    have hpos : n ≠ 0 := fun h => e.most_ne_zero (h ▸ hn)
    rw [List.take_eq_nil_iff]
    exact ⟨fun h => h.resolve_left hpos, Or.inr⟩
  · exact Iff.rfl

end

/-! ## Lines -/

/-- The sections that begin after a line. -/
def sectionsAfter (after : Nat) (sections : List Section) : List Section :=
  sections.filter fun s => after < s.startLine

theorem sectionsAfter_sublist (after : Nat) (sections : List Section) :
    (sectionsAfter after sections).Sublist sections := List.filter_sublist

theorem mem_sectionsAfter {after : Nat} {sections : List Section} {s : Section} :
    s ∈ sectionsAfter after sections ↔ s ∈ sections ∧ after < s.startLine := by
  simp [sectionsAfter]

/-- All sections begin after line 0. -/
theorem sectionsAfter_zero {sections : List Section} (h : Regular sections) :
    sectionsAfter 0 sections = sections :=
  List.filter_eq_self.2 fun s hs =>
    decide_eq_true (h.positive s ((sublist_walkAll sections).subset hs))

theorem sectionsAfter_sectionsAfter {after line : Nat} (h : after ≤ line)
    (sections : List Section) :
    sectionsAfter line (sectionsAfter after sections) = sectionsAfter line sections := by
  unfold sectionsAfter
  rw [List.filter_filter]
  refine List.filter_congr fun s _ => ?_
  by_cases hs : line < s.startLine
  · simp [hs, Nat.lt_of_le_of_lt h hs]
  · simp [hs]

theorem lastLine_nil (after : Nat) : lastLine after [] = after := rfl

theorem lastLine_cons (after : Nat) (s : Section) (taken : List Section) :
    lastLine after (s :: taken) = lastLine s.startLine taken := by
  unfold lastLine
  rw [List.getLast?_cons]
  cases taken.getLast? <;> rfl

/-- Sections with increasing lines begin no later than the last one. -/
theorem startLine_le_lastLine {taken : List Section} : ∀ {after : Nat},
    taken.Pairwise (fun s t => s.startLine < t.startLine) →
      (∀ s ∈ taken, after < s.startLine) →
        after ≤ lastLine after taken ∧ ∀ s ∈ taken, s.startLine ≤ lastLine after taken := by
  induction taken with
  | nil => intro after _ _; exact ⟨Nat.le_refl _, fun _ h => absurd h List.not_mem_nil⟩
  | cons t taken ih =>
    intro after hinc hafter
    obtain ⟨ht, hinc⟩ := List.pairwise_cons.1 hinc
    obtain ⟨hle, hall⟩ := ih hinc ht
    rw [lastLine_cons]
    refine ⟨Nat.le_trans (Nat.le_of_lt (hafter t List.mem_cons_self)) hle, fun s hs => ?_⟩
    rcases List.mem_cons.1 hs with rfl | hs
    · exact hle
    · exact hall s hs

/-- Sections with increasing lines fall into those up to a line and those after it. -/
theorem filter_append_sectionsAfter (line : Nat) {sections : List Section}
    (h : sections.Pairwise fun s t => s.startLine < t.startLine) :
    (sections.filter fun s => s.startLine ≤ line) ++ sectionsAfter line sections = sections := by
  induction sections with
  | nil => rfl
  | cons s rest ih =>
    obtain ⟨hs, hrest⟩ := List.pairwise_cons.1 h
    rw [sectionsAfter, List.filter_cons, List.filter_cons]
    by_cases hle : s.startLine ≤ line
    · have hnot : ¬ line < s.startLine := by omega
      rw [if_pos (decide_eq_true hle), if_neg (by simpa using hnot), List.cons_append]
      exact congrArg (s :: ·) (ih hrest)
    · have hafter : ∀ t ∈ rest, line < t.startLine := fun t ht => by
        have := hs t ht
        omega
      have hnone : rest.filter (fun t => t.startLine ≤ line) = [] :=
        List.filter_eq_nil_iff.2 fun t ht => by simpa using hafter t ht
      have hall : rest.filter (fun t => line < t.startLine) = rest :=
        List.filter_eq_self.2 fun t ht => decide_eq_true (hafter t ht)
      rw [if_neg (by simpa using hle), if_pos (by simpa using hle), hnone, hall, List.nil_append]

/-- **What is left for later siblings begins after what an element took.** -/
theorem append_sectionsAfter_sublist {sections taken : List Section} {after : Nat}
    (h : sections.Pairwise fun s t => s.startLine < t.startLine)
    (htaken : taken.Sublist (sectionsAfter after sections)) :
    (taken ++ sectionsAfter (lastLine after taken) sections).Sublist
      (sectionsAfter after sections) := by
  have hinc := h.sublist (sectionsAfter_sublist after sections)
  obtain ⟨hle, hall⟩ := startLine_le_lastLine (hinc.sublist htaken)
    fun s hs => (mem_sectionsAfter.1 (htaken.subset hs)).2
  have hsplit := filter_append_sectionsAfter (lastLine after taken) hinc
  rw [sectionsAfter_sectionsAfter hle] at hsplit
  have hfirst : taken.Sublist
      ((sectionsAfter after sections).filter fun s => s.startLine ≤ lastLine after taken) := by
    have := htaken.filter fun s => s.startLine ≤ lastLine after taken
    rwa [List.filter_eq_self.2 fun s hs => decide_eq_true (hall s hs)] at this
  calc (taken ++ sectionsAfter (lastLine after taken) sections).Sublist
        (((sectionsAfter after sections).filter fun s => s.startLine ≤ lastLine after taken) ++
          sectionsAfter (lastLine after taken) sections) := hfirst.append_right _
    _ = sectionsAfter after sections := hsplit

end Outline

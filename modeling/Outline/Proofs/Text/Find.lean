import Mathlib.Data.List.Infix
import Outline.Text.Find

/-!
# Occurrences

A text occurs in another exactly if it stands somewhere within it (`Text.contains_iff`). It is found
where it first occurs (`Text.findFrom?_eq_some`), and a character where it occurs last
(`Text.findLast?_eq_some_iff`).
-/

namespace Outline.Text

theorem isSome_findFrom?_iff {part cs : List Char} : ∀ {i : Nat},
    (findFrom? part cs i).isSome = true ↔ part <:+: cs := by
  induction cs with
  | nil =>
    intro i
    rw [findFrom?, List.infix_nil]
    cases part <;> simp
  | cons c cs ih =>
    intro i
    rw [findFrom?, List.infix_cons_iff]
    split_ifs with h
    · simp [List.isPrefixOf_iff_prefix.1 h]
    · rw [ih]
      refine (or_iff_right fun hprefix => h ?_).symm
      exact List.isPrefixOf_iff_prefix.2 hprefix

/-- **Occurrences**: `part` stands somewhere within `cs`. -/
theorem contains_iff {cs part : List Char} : contains cs part = true ↔ part <:+: cs :=
  isSome_findFrom?_iff

/-- What is found first occurs there, and not before. -/
theorem findFrom?_eq_some {part cs : List Char} (hpart : part ≠ []) {i j : Nat}
    (h : findFrom? part cs i = some j) :
    ∃ m, j = i + m ∧ part <+: cs.drop m ∧ ∀ m' < m, ¬ part <+: cs.drop m' := by
  induction cs generalizing i with
  | nil =>
    rw [findFrom?, if_neg (by simpa using hpart)] at h
    cases h
  | cons c cs ih =>
    rw [findFrom?] at h
    split_ifs at h with hhere
    · cases h
      exact ⟨0, rfl, List.isPrefixOf_iff_prefix.1 hhere, nofun⟩
    · obtain ⟨m, rfl, hm, hbefore⟩ := ih h
      refine ⟨m + 1, Nat.add_right_comm i 1 m, hm, fun m' hm' => ?_⟩
      cases m' with
      | zero => exact mt List.isPrefixOf_iff_prefix.2 hhere
      | succ m' => exact hbefore m' (Nat.lt_of_succ_lt_succ hm')

theorem startsWith_singleton (c d : Char) (cs : List Char) :
    startsWith [c] (d :: cs) = (c == d) := by
  simp [startsWith, List.isPrefixOf]

theorem findLastFrom?_eq_none {c : Char} {cs : List Char} {i : Nat}
    (h : findLastFrom? [c] cs i = none) : c ∉ cs := by
  induction cs generalizing i with
  | nil => exact List.not_mem_nil
  | cons d cs ih =>
    rw [findLastFrom?, startsWith_singleton] at h
    split at h
    · cases h
    · rename_i hbehind
      split_ifs at h with hhere
      exact List.not_mem_cons_of_ne_of_not_mem (by simpa using hhere) (ih hbehind)

/-- The character that is found last stands there, and not behind. -/
theorem findLastFrom?_eq_some {c : Char} {cs : List Char} {i j : Nat}
    (h : findLastFrom? [c] cs i = some j) :
    ∃ m, j = i + m ∧ cs[m]? = some c ∧ c ∉ cs.drop (m + 1) := by
  induction cs generalizing i with
  | nil => cases h
  | cons d cs ih =>
    rw [findLastFrom?, startsWith_singleton] at h
    split at h
    · rename_i hbehind
      cases h
      obtain ⟨m, rfl, hm, hlast⟩ := ih hbehind
      exact ⟨m + 1, Nat.add_right_comm i 1 m, hm, hlast⟩
    · rename_i hbehind
      split_ifs at h with hhere
      cases h
      exact ⟨0, rfl, congrArg some (eq_of_beq hhere).symm, findLastFrom?_eq_none hbehind⟩

/-- **The last place of a character**: it stands there, and not behind. -/
theorem findLast?_eq_some_iff {c : Char} {cs : List Char} {m : Nat} :
    findLast? [c] cs = some m ↔ cs[m]? = some c ∧ c ∉ cs.drop (m + 1) := by
  constructor
  · intro h
    obtain ⟨m', heq, hm⟩ := findLastFrom?_eq_some h
    rw [Nat.zero_add] at heq
    exact heq ▸ hm
  · rintro ⟨hm, hlast⟩
    cases h : findLast? [c] cs with
    | none => exact absurd (List.mem_of_getElem? hm) (findLastFrom?_eq_none h)
    | some m' =>
      obtain ⟨m'', heq, hm', hlast'⟩ := findLastFrom?_eq_some h
      obtain rfl : m' = m'' := heq.trans (Nat.zero_add m'')
      rcases lt_trichotomy m m' with hlt | rfl | hlt
      · refine absurd (List.mem_of_getElem? (i := m' - (m + 1)) ?_) hlast
        rwa [List.getElem?_drop, Nat.add_sub_cancel' hlt]
      · rfl
      · refine absurd (List.mem_of_getElem? (i := m - (m' + 1)) ?_) hlast'
        rwa [List.getElem?_drop, Nat.add_sub_cancel' hlt]

end Outline.Text

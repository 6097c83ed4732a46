import Outline.Proofs.Rule.FrontMatter
import Outline.Proofs.Text.Blank

/-!
# Values that meet a rule for a field

**A value has no faults if it is of the type and of the format that are asked for, and one of the
choices** (`FieldRule.messages_eq_nil_iff`, for a rule without a pattern). No text is of two formats
if one of them is that of dates: there are no at signs and no slashes in a date.
-/

namespace Outline

variable {r : FieldRule} {v : Value} {s : String}

/-! ## Texts of several formats -/

theorem exists_cut_of_mem {α : Type} {p : α → Bool} {l : List α} {a : α} (ha : a ∈ l) :
    p a = true ∨ ∃ piece ∈ cut p l, a ∈ piece := by
  induction l with
  | nil => cases ha
  | cons b l ih =>
    rw [cut]
    split_ifs with hb
    · rcases List.mem_cons.1 ha with rfl | ha
      · exact .inl hb
      · obtain hp | ⟨piece, hpiece, hmem⟩ := ih ha
        · exact .inl hp
        · exact .inr ⟨piece, List.mem_cons_of_mem _ hpiece, hmem⟩
    · obtain ⟨first, pieces, hcut⟩ : ∃ first pieces, cut p l = first :: pieces := by
        refine List.exists_cons_of_length_pos ?_
        rw [length_cut]
        exact Nat.succ_pos _
      rw [hcut] at ih ⊢
      rcases List.mem_cons.1 ha with rfl | ha
      · exact .inr ⟨_, List.mem_cons_self, List.mem_cons_self⟩
      · obtain hp | ⟨piece, hpiece, hmem⟩ := ih ha
        · exact .inl hp
        rcases List.mem_cons.1 hpiece with rfl | hpiece
        · exact .inr ⟨_, List.mem_cons_self, List.mem_cons_of_mem _ hmem⟩
        · exact .inr ⟨piece, List.mem_cons_of_mem _ hpiece, hmem⟩

theorem digit_or_hyphen_of_writesDate (h : writesDate s = true) :
    ∀ c ∈ s.toList, isAsciiDigit c = true ∨ c = '-' := by
  intro c hc
  unfold writesDate at h
  split at h
  · rename_i y m d hnumbers
    unfold dateNumbers? at hnumbers
    split at hnumbers
    · rename_i ys ms ds hcut
      split_ifs at hnumbers with hall
      simp only [Bool.and_eq_true, List.all_eq_true] at hall
      rcases exists_cut_of_mem (p := (· == '-')) hc with hhyphen | ⟨piece, hpiece, hmem⟩
      · exact .inr (beq_iff_eq.1 hhyphen)
      · rw [show cut (· == '-') s.toList = _ from hcut] at hpiece
        refine .inl (hall.2 c ?_)
        simp only [List.mem_cons, List.not_mem_nil, or_false] at hpiece
        rcases hpiece with rfl | rfl | rfl <;> simp [hmem]
    · cases hnumbers
  · cases h

theorem at_mem_of_isMailAddress (h : isMailAddress s = true) : '@' ∈ s.toList := by
  have hsub : withoutLastBreak s.toList ⊆ s.toList := by
    unfold withoutLastBreak
    split
    · exact List.dropLast_subset _
    · exact List.Subset.refl _
  by_contra hnot
  have hnone : ∀ c ∈ withoutLastBreak s.toList, (c == '@') = false := fun c hc =>
    beq_eq_false_iff_ne.2 fun heq => hnot (heq ▸ hsub hc)
  have hcut : cutOn '@' (withoutLastBreak s.toList) = [withoutLastBreak s.toList] :=
    cut_eq_singleton hnone
  simp only [isMailAddress, hcut] at h
  cases h

theorem slash_mem_of_isPageAddress (h : isPageAddress s = .ok true) : '/' ∈ s.toList := by
  have hsub : (splitScheme (cleanAddress s.toList)).2 ⊆ s.toList := fun c hc =>
    (List.dropWhile_sublist _).subset (List.mem_filter.1 (subset_splitScheme _ hc)).1
  unfold isPageAddress splitAddress at h
  generalize splitScheme (cleanAddress s.toList) = parts at h hsub
  obtain ⟨scheme, rest⟩ := parts
  dsimp only at h hsub
  split at h
  · exact hsub List.mem_cons_self
  · simp [bind, Except.bind, pure, Except.pure] at h

theorem not_writesDate_of_mem {c : Char} (hc : c ∈ s.toList)
    (hother : isAsciiDigit c = false ∧ c ≠ '-') : writesDate s = false := by
  rw [Bool.eq_false_iff]
  intro hdate
  rcases digit_or_hyphen_of_writesDate hdate c hc with h | h
  · rw [hother.1] at h
    cases h
  · exact hother.2 h

/-! ## Values that pass -/

theorem FieldRule.messages_eq_nil_iff (hpattern : r.pattern = "") : r.messages v = .ok [] ↔
    (∀ t ∈ r.type, t.holds v = true) ∧ (∀ f ∈ r.format, formatMessages r.name f v = .ok []) ∧
      choiceMessages r.name r.choices v = .ok [] := by
  have htype : r.type.elim [] (typeMessages r.name · v) = [] ↔ ∀ t ∈ r.type, t.holds v = true := by
    cases r.type with
    | none => simp
    | some t => simp [typeMessages]
  have hformat : r.format.elim (.ok []) (formatMessages r.name · v) = .ok [] ↔
      ∀ f ∈ r.format, formatMessages r.name f v = .ok [] := by
    cases r.format <;> simp
  have hmatch : patternMessages r.name r.pattern v = .ok [] := by
    rw [patternMessages, hpattern]
    rfl
  have hmessages : r.messages v = do
      let format ← r.format.elim (.ok []) (formatMessages r.name · v)
      let choice ← choiceMessages r.name r.choices v
      let pattern ← patternMessages r.name r.pattern v
      return r.type.elim [] (typeMessages r.name · v) ++ format ++ choice ++ pattern := by
    rw [FieldRule.messages_eq]
    cases r.type <;> cases r.format <;> rfl
  rw [hmessages, hmatch, ← htype, ← hformat]
  simp only [bind_eq_ok]
  constructor
  · rintro ⟨format, hformat, choice, hchoice, pattern, hpattern, h⟩
    cases hpattern
    have h := Except.ok.inj h
    simp only [List.append_eq_nil_iff] at h
    obtain ⟨⟨⟨htype, rfl⟩, rfl⟩, -⟩ := h
    exact ⟨htype, hformat, hchoice⟩
  · rintro ⟨htype, hformat, hchoice⟩
    exact ⟨[], hformat, [], hchoice, [], rfl,
      congrArg (fun type => Except.ok (type ++ [] ++ [] ++ [])) htype⟩

theorem formatMessages_date_iff {name : String} :
    formatMessages name .date v = .ok [] ↔ isValidDate v = true := by
  simp [formatMessages]

theorem formatMessages_email_iff {name : String} :
    formatMessages name .email v = .ok [] ↔ ∃ s, v = .str s ∧ isMailAddress s = true := by
  cases v <;> simp [formatMessages]

theorem formatMessages_url_iff {name : String} :
    formatMessages name .url v = .ok [] ↔ ∃ s, v = .str s ∧ isPageAddress s = .ok true := by
  cases v with
  | str s =>
    simp only [formatMessages, bind_eq_ok]
    constructor
    · rintro ⟨good, hgood, h⟩
      cases good
      · cases h
      · exact ⟨s, rfl, hgood⟩
    · rintro ⟨t, ht, h⟩
      cases ht
      exact ⟨true, h, rfl⟩
  | _ => simp [formatMessages]

end Outline

import Mathlib.Data.List.DropRight
import Mathlib.Tactic.SplitIfs
import Outline.Text.Blank

/-!
# Cuts and trims

What is put together with a cut between each two is cut there again (`cut_intercalate`). A list is
trimmed if neither its first nor its last member would be trimmed away (`trim_eq_self_iff`), and
**what was trimmed stays as it is** (`trim_trim`).
-/

namespace Outline

variable {α : Type} {p : α → Bool} {l : List α}

/-- What is said of the characters of a text is decided character by character, and not by looking
at all characters there are. -/
instance decidableForallMem {P : Char → Prop} [DecidablePred P] (cs : List Char) :
    Decidable (∀ c ∈ cs, P c) := List.decidableBAll P cs

/-! ## Fronts -/

theorem takeWhile_append_apart {l' : List α} (hl : ∀ a ∈ l, p a = true)
    (hl' : ∀ a ∈ l'.head?, p a = false) : (l ++ l').takeWhile p = l := by
  rw [List.takeWhile_append_of_pos hl]
  obtain _ | ⟨a, l'⟩ := l'
  · exact List.append_nil l
  · rw [List.takeWhile_cons_of_neg (by rw [hl' a rfl]; decide), List.append_nil]

theorem dropWhile_append_apart {l' : List α} (hl : ∀ a ∈ l, p a = true)
    (hl' : ∀ a ∈ l'.head?, p a = false) : (l ++ l').dropWhile p = l' := by
  rw [List.dropWhile_append_of_pos hl]
  obtain _ | ⟨a, l'⟩ := l'
  · rfl
  · exact List.dropWhile_cons_of_neg (by rw [hl' a rfl]; decide)

theorem drop_length_takeWhile (p : α → Bool) (l : List α) :
    l.drop (l.takeWhile p).length = l.dropWhile p := by
  calc l.drop (l.takeWhile p).length
      = (l.takeWhile p ++ l.dropWhile p).drop (l.takeWhile p).length := by
        rw [List.takeWhile_append_dropWhile]
    _ = l.dropWhile p := List.drop_left

theorem head?_dropWhile (p : α → Bool) (l : List α) : ∀ a ∈ (l.dropWhile p).head?, p a = false := by
  intro a ha
  have hnot := List.head?_dropWhile_not p l
  rw [ha] at hnot
  exact hnot

/-! ## Pieces -/

/-- The first cut and what follows it. -/
theorem cut_append (h : ∀ a ∈ l, p a = false) {sep : α}
    (hsep : p sep = true) (rest : List α) : cut p (l ++ sep :: rest) = l :: cut p rest := by
  induction l with
  | nil => rw [List.nil_append, cut, if_pos hsep]
  | cons a l ih =>
    obtain ⟨ha, hl⟩ := List.forall_mem_cons.1 h
    rw [List.cons_append, cut, ih hl, if_neg (by simp [ha])]

theorem cut_eq_singleton (h : ∀ a ∈ l, p a = false) : cut p l = [l] := by
  induction l with
  | nil => rfl
  | cons a l ih =>
    obtain ⟨ha, hl⟩ := List.forall_mem_cons.1 h
    rw [cut, ih hl, if_neg (by simp [ha])]

theorem length_cut (l : List α) : (cut p l).length = l.countP p + 1 := by
  induction l with
  | nil => rfl
  | cons a l ih =>
    rw [cut, List.countP_cons]
    split
    · rw [List.length_cons, ih]
    · rw [← ih]
      cases hl : cut p l with
      | nil => rw [hl] at ih; cases ih
      | cons piece pieces => rfl

/-- Changing members moves no cuts, if they stay those that are cut at. -/
theorem cut_map {β : Type} (f : β → α) (l : List β) :
    cut p (l.map f) = (cut (p ∘ f) l).map (List.map f) := by
  induction l with
  | nil => rfl
  | cons b l ih =>
    rw [List.map_cons, cut, cut, ih, Function.comp_apply]
    cases p (f b) with
    | true => rfl
    | false =>
      cases cut (p ∘ f) l with
      | nil => rfl
      | cons piece pieces => rfl

/-- **Pieces that are put together with a cut between each two come back.** -/
theorem cut_intercalate {ls : List (List α)} (hsome : ls ≠ [])
    (h : ∀ l ∈ ls, ∀ a ∈ l, p a = false) {sep : α} (hsep : p sep = true) :
    cut p ([sep].intercalate ls) = ls := by
  induction ls with
  | nil => exact absurd rfl hsome
  | cons l ls ih =>
    obtain ⟨hl, hls⟩ := List.forall_mem_cons.1 h
    cases ls with
    | nil => rw [List.intercalate_singleton, cut_eq_singleton hl]
    | cons l' ls =>
      rw [List.intercalate_cons_cons, List.append_assoc, List.singleton_append,
        cut_append hl hsep, ih (List.cons_ne_nil _ _) hls]

/-- The members of pieces are members of the whole at which nothing is cut. -/
theorem mem_of_mem_cut {piece : List α} (h : piece ∈ cut p l) :
    ∀ a ∈ piece, a ∈ l ∧ p a = false := by
  induction l generalizing piece with
  | nil =>
    cases List.mem_singleton.1 h
    exact fun _ ha => absurd ha List.not_mem_nil
  | cons b l ih =>
    have hin {piece : List α} (hpiece : piece ∈ cut p l) : ∀ a ∈ piece, a ∈ b :: l ∧ p a = false :=
      fun a ha => (ih hpiece a ha).imp_left (List.mem_cons_of_mem b)
    rw [cut] at h
    split_ifs at h with hb
    · rcases List.mem_cons.1 h with rfl | h
      · exact fun _ ha => absurd ha List.not_mem_nil
      · exact hin h
    · have hself : b ∈ b :: l ∧ p b = false := ⟨List.mem_cons_self, Bool.eq_false_iff.2 hb⟩
      split at h
      · cases List.mem_singleton.1 h
        exact fun a ha => List.mem_singleton.1 ha ▸ hself
      · rename_i first pieces hcut
        rcases List.mem_cons.1 h with rfl | h
        · exact List.forall_mem_cons.2 ⟨hself, hin (hcut ▸ List.mem_cons_self)⟩
        · exact hin (hcut ▸ List.mem_cons_of_mem first h)

theorem eq_or_mem_of_mem_intercalate {ls : List (List α)} {a sep : α}
    (h : a ∈ [sep].intercalate ls) : a = sep ∨ ∃ l ∈ ls, a ∈ l := by
  induction ls with
  | nil => exact absurd h List.not_mem_nil
  | cons l ls ih =>
    cases ls with
    | nil => exact .inr ⟨l, List.mem_singleton_self l, by simpa using h⟩
    | cons l' ls =>
      rw [List.intercalate_cons_cons, List.append_assoc, List.mem_append, List.singleton_append,
        List.mem_cons] at h
      rcases h with h | h | h
      · exact .inr ⟨l, List.mem_cons_self, h⟩
      · exact .inl h
      · exact (ih h).imp_right fun ⟨l'', hl'', ha⟩ => ⟨l'', List.mem_cons_of_mem _ hl'', ha⟩

/-! ## Trims -/

theorem trimRight_eq_rdropWhile (p : α → Bool) (l : List α) : trimRight p l = l.rdropWhile p := rfl

theorem trimLeft_eq_self_iff : trimLeft p l = l ↔ ∀ a ∈ l.head?, p a = false := by
  unfold trimLeft
  cases l with
  | nil => simp
  | cons a l =>
    rw [List.dropWhile_cons]
    cases hp : p a with
    | true =>
      have hlength := (List.dropWhile_sublist p (l := l)).length_le
      refine ⟨fun h => ?_, fun h => ?_⟩
      · have := congrArg List.length h
        simp only [if_true, List.length_cons] at this
        omega
      · exact absurd (h a rfl) (by simp [hp])
    | false => simp [hp]

theorem trimRight_eq_self_iff : trimRight p l = l ↔ ∀ a ∈ l.getLast?, p a = false := by
  rw [trimRight_eq_rdropWhile, List.rdropWhile_eq_self_iff]
  cases l using List.reverseRecOn with
  | nil => simp
  | append_singleton l a => simp

/-- **Trimmed lists**: neither their first nor their last member would be trimmed away. -/
theorem trim_eq_self_iff :
    trim p l = l ↔ (∀ a ∈ l.head?, p a = false) ∧ ∀ a ∈ l.getLast?, p a = false := by
  rw [← trimLeft_eq_self_iff, ← trimRight_eq_self_iff]
  constructor
  · intro h
    have hsuffix : (trimLeft p l) <:+ l := List.dropWhile_suffix p
    have hprefix : trim p l <+: trimLeft p l := List.rdropWhile_prefix p _
    have hleft : trimLeft p l = l :=
      hsuffix.eq_of_length_le (by have := hprefix.length_le; rw [h] at this; exact this)
    exact ⟨hleft, by unfold trim at h; rwa [hleft] at h⟩
  · rintro ⟨hleft, hright⟩
    rw [trim, hleft, hright]

/-- **What was trimmed stays as it is.** -/
theorem trim_trim (p : α → Bool) (l : List α) : trim p (trim p l) = trim p l := by
  have hprefix : trim p l <+: trimLeft p l := List.rdropWhile_prefix p _
  rw [trim_eq_self_iff]
  constructor
  · intro a ha
    have hhead : a ∈ (trimLeft p l).head? := by
      cases htrim : trim p l with
      | nil => rw [htrim] at ha; cases ha
      | cons b bs =>
        rw [htrim] at ha hprefix
        obtain ⟨cs, hcs⟩ := hprefix
        rw [← hcs]
        exact ha
    exact trimLeft_eq_self_iff.1 (List.dropWhile_idempotent p l) a hhead
  · exact trimRight_eq_self_iff.1 (List.rdropWhile_idempotent p (trimLeft p l))

theorem infix_trimLeft {part : List α} (h : part <:+: l) (hfirst : ∀ a ∈ part.head?, p a = false) :
    part <:+: trimLeft p l := by
  obtain ⟨front, back, rfl⟩ := h
  have hkept : (part ++ back).dropWhile p = part ++ back ∨ part = [] := by
    cases part with
    | nil => exact Or.inr rfl
    | cons a part => exact Or.inl (List.dropWhile_cons_of_neg (by simp [hfirst a rfl]))
  rcases hkept with hkept | rfl
  · rw [trimLeft, List.append_assoc, List.dropWhile_append, hkept]
    split_ifs
    · exact (List.prefix_append _ _).isInfix
    · exact ⟨_, back, List.append_assoc _ _ _⟩
  · exact List.nil_infix

/-- **A part whose ends are not trimmed away is left** where the whole is trimmed. -/
theorem infix_trim {part : List α} (h : part <:+: l) (hfirst : ∀ a ∈ part.head?, p a = false)
    (hlast : ∀ a ∈ part.getLast?, p a = false) : part <:+: trim p l := by
  rw [← List.head?_reverse] at hlast
  rw [← List.reverse_infix, trim, trimRight, List.reverse_reverse]
  exact infix_trimLeft (List.reverse_infix.2 (infix_trimLeft h hfirst)) hlast

@[simp] theorem strip_strip (s : String) : strip (strip s) = strip s := by
  unfold strip
  rw [String.toList_ofList, trim_trim]

theorem strip_eq_self_iff {s : String} : strip s = s ↔ trim isBlank s.toList = s.toList := by
  unfold strip
  rw [← String.toList_inj, String.toList_ofList]

end Outline

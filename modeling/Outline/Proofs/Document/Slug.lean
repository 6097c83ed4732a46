import Mathlib.Data.List.Chain
import Mathlib.Data.Set.Basic
import Outline.Document.Slug
import Outline.Proofs.Text.Blank

/-!
# The texts that are slugs

Whatever a heading says, its slug has small ASCII letters, digits, underscores and single hyphens
between them, and **every such text is its own slug** (`slug_language`). So nothing is gained by
taking the slug of a slug, and each of these texts is the slug of some heading.

* `slugKeeps_and_ne_space_iff`: the characters of slugs;
* `isSlug_slugChars`: slugs are such texts;
* `IsSlug.slugChars_eq`: such texts are their own slugs.
-/

namespace Outline

variable {cs : List Char} {c : Char}

/-! ## Characters -/

/-- The characters of slugs: small letters, digits, underscores and hyphens. -/
theorem slugKeeps_and_ne_space_iff (c : Char) : slugKeeps c = true ∧ c ≠ ' ' ↔
    ('a' ≤ c ∧ c ≤ 'z') ∨ ('0' ≤ c ∧ c ≤ '9') ∨ c = '_' ∨ c = '-' := by
  have hle (a b : Char) : a ≤ b ↔ a.toNat ≤ b.toNat := Iff.rfl
  have hspace (h : c = ' ') : c.toNat = 32 := h ▸ rfl
  have hunderscore (h : c = '_') : c.toNat = 95 := h ▸ rfl
  have hhyphen (h : c = '-') : c.toNat = 45 := h ▸ rfl
  simp only [slugKeeps, Bool.or_eq_true, Bool.and_eq_true, decide_eq_true_eq, beq_iff_eq, hle,
    show 'a'.toNat = 97 from rfl, show 'z'.toNat = 122 from rfl, show '0'.toNat = 48 from rfl,
    show '9'.toNat = 57 from rfl]
  grind

theorem IsSlug.toNat_lt (h : IsSlug cs) (hc : c ∈ cs) :
    c.toNat < 128 ∧ ¬ (65 ≤ c.toNat ∧ c.toNat ≤ 90) := by
  have hkept := (h.1 c hc).1
  simp only [slugKeeps, Bool.or_eq_true, Bool.and_eq_true, decide_eq_true_eq, beq_iff_eq] at hkept
  have hle : ∀ d : Char, c = d → c.toNat = d.toNat := fun _ => congrArg Char.toNat
  obtain (((h | h) | h) | h) | h := hkept
  · omega
  · omega
  all_goals
    rw [hle _ h]
    decide

/-- A text of ASCII characters other than capital letters is in lower case. -/
theorem lowerFrom_eq_self (h : ∀ c ∈ cs, c.toNat < 128 ∧ ¬ (65 ≤ c.toNat ∧ c.toNat ≤ 90)) :
    ∀ before, lowerFrom before cs = cs := by
  induction cs with
  | nil => exact fun _ => rfl
  | cons c cs ih =>
    intro before
    obtain ⟨⟨hascii, hsmall⟩, hcs⟩ := List.forall_mem_cons.1 h
    have hlower : lowerChar c = c := by
      simp only [lowerChar, hascii, if_true, Bool.and_eq_true, decide_eq_true_eq]
      rw [if_neg hsmall]
    unfold lowerFrom
    dsimp only
    rw [if_neg (by omega), if_neg (by omega), hlower, ih hcs]
    rfl

/-! ## Hyphens -/

/-- No hyphen stands behind a hyphen. -/
abbrev SingleHyphens (cs : List Char) : Prop := cs.IsChain fun a b => ¬ (a = '-' ∧ b = '-')

theorem singleHyphens_iff :
    SingleHyphens cs ↔ ∀ a b, [a, b] <:+: cs → ¬ (a = '-' ∧ b = '-') := by
  rw [SingleHyphens, List.isChain_iff_forall_rel_of_append_cons_cons]
  constructor
  · rintro h a b ⟨front, back, rfl⟩
    exact h (List.append_assoc front [a, b] back)
  · rintro h a b front back rfl
    exact h a b ⟨front, back, List.append_assoc front [a, b] back⟩

theorem joinHyphens_sublist (cs : List Char) : (joinHyphens cs).Sublist cs := by
  induction cs using joinHyphens.induct with
  | case1 => exact .slnil
  | case2 c => exact List.Sublist.refl _
  | case3 a b cs h ih =>
    rw [joinHyphens, if_pos h]
    exact ih.cons a
  | case4 a b cs h ih =>
    rw [joinHyphens, if_neg h]
    exact ih.cons_cons a

/-- The first of several hyphens goes, but a hyphen stays in its place. -/
theorem head?_joinHyphens (cs : List Char) : (joinHyphens cs).head? = cs.head? := by
  induction cs using joinHyphens.induct with
  | case1 => rfl
  | case2 c => rfl
  | case3 a b cs h ih =>
    obtain ⟨ha, hb⟩ := Bool.and_eq_true_iff.1 h
    rw [joinHyphens, if_pos h, ih, eq_of_beq ha]
    exact congrArg some (eq_of_beq hb)
  | case4 a b cs h ih => rw [joinHyphens, if_neg h, List.head?_cons, List.head?_cons]

theorem singleHyphens_joinHyphens (cs : List Char) : SingleHyphens (joinHyphens cs) := by
  induction cs using joinHyphens.induct with
  | case1 => exact .nil
  | case2 c => exact .singleton c
  | case3 a b cs h ih => rwa [joinHyphens, if_pos h]
  | case4 a b cs h ih =>
    rw [joinHyphens, if_neg h]
    refine List.isChain_cons.2 ⟨fun d hd => ?_, ih⟩
    rw [head?_joinHyphens] at hd
    obtain rfl := Option.some.inj hd
    rwa [Bool.and_eq_true_iff, beq_iff_eq, beq_iff_eq] at h

theorem joinHyphens_eq_self (h : SingleHyphens cs) : joinHyphens cs = cs := by
  induction cs using joinHyphens.induct with
  | case1 => rfl
  | case2 c => rfl
  | case3 a b cs hab ih =>
    rw [Bool.and_eq_true_iff, beq_iff_eq, beq_iff_eq] at hab
    exact absurd hab (List.isChain_cons_cons.1 h).1
  | case4 a b cs hab ih => rw [joinHyphens, if_neg hab, ih (List.isChain_cons_cons.1 h).2]

/-! ## Slugs -/

theorem trim_infix (p : Char → Bool) (cs : List Char) : trim p cs <:+: cs :=
  (List.rdropWhile_prefix p _).isInfix.trans (List.dropWhile_suffix p).isInfix

/-- **The slug of a text** has no other characters than those of slugs, and its hyphens stand alone
and between others. -/
theorem isSlug_slugChars (cs : List Char) : IsSlug (slugChars cs) := by
  unfold slugChars
  dsimp only
  generalize hkept : (lowerChars cs).filter slugKeeps = kept
  generalize hspaced : (kept.map fun c => if c == ' ' then '-' else c) = spaced
  have htrim := trim_infix (· == '-') (joinHyphens spaced)
  have halone := List.IsChain.infix (singleHyphens_joinHyphens spaced) htrim
  have hends : ∀ {c : Char}, (c == '-') = false → c ≠ '-' := fun h => beq_eq_false_iff_ne.1 h
  obtain ⟨hhead, hlast⟩ := trim_eq_self_iff.1 (trim_trim (· == '-') (joinHyphens spaced))
  refine ⟨fun c hc => ?_, singleHyphens_iff.1 halone,
    fun h => hends (hhead _ h) rfl, fun h => hends (hlast _ h) rfl⟩
  have hmem := (joinHyphens_sublist spaced).subset (htrim.subset hc)
  rw [← hspaced] at hmem
  obtain ⟨d, hd, rfl⟩ := List.mem_map.1 hmem
  rw [← hkept] at hd
  split
  · exact ⟨rfl, by decide⟩
  · rename_i hspace
    exact ⟨(List.mem_filter.1 hd).2, mt beq_iff_eq.2 hspace⟩

/-- **Such a text is its own slug**: no step of the making of slugs changes it. -/
theorem IsSlug.slugChars_eq (h : IsSlug cs) : slugChars cs = cs := by
  have hlower : lowerChars cs = cs := lowerFrom_eq_self (fun _ hc => h.toNat_lt hc) []
  have hkept : cs.filter slugKeeps = cs := List.filter_eq_self.2 fun c hc => (h.1 c hc).1
  have hspaced : (cs.map fun c => if c == ' ' then '-' else c) = cs := by
    refine (List.map_congr_left fun c hc => ?_).trans cs.map_id
    exact if_neg (mt eq_of_beq (h.1 c hc).2)
  have hjoined := joinHyphens_eq_self (singleHyphens_iff.2 h.2.1)
  have htrimmed : trim (· == '-') cs = cs :=
    trim_eq_self_iff.2 ⟨fun c hc => beq_eq_false_iff_ne.2 fun heq => h.2.2.1 (heq ▸ hc),
      fun c hc => beq_eq_false_iff_ne.2 fun heq => h.2.2.2 (heq ▸ hc)⟩
  unfold slugChars
  dsimp only
  rw [hlower, hkept, hspaced, hjoined, htrimmed]

theorem isSlug_iff : IsSlug cs ↔
    (∀ c ∈ cs, ('a' ≤ c ∧ c ≤ 'z') ∨ ('0' ≤ c ∧ c ≤ '9') ∨ c = '_' ∨ c = '-') ∧
      ¬ ['-', '-'] <:+: cs ∧ cs.head? ≠ some '-' ∧ cs.getLast? ≠ some '-' := by
  unfold IsSlug
  simp only [slugKeeps_and_ne_space_iff]
  refine and_congr_right fun _ => and_congr_left fun _ => ⟨fun h => ?_, fun h a b hab => ?_⟩
  · exact fun hhyphens => h '-' '-' hhyphens ⟨rfl, rfl⟩
  · rintro ⟨rfl, rfl⟩
    exact h hab

/-- **The slugs are exactly the texts** of small letters, digits, underscores and hyphens in which
hyphens stand alone and between others. Each of them is its own slug, so that the slug of a slug is
the slug itself. -/
theorem slug_language :
    (∀ s, IsSlug (slug s).toList) ∧
    (∀ s, IsSlug s.toList → slug s = s) ∧
    (∀ s, slug (slug s) = slug s) ∧
    ∀ t, t ∈ Set.range slug ↔
      (∀ c ∈ t.toList, ('a' ≤ c ∧ c ≤ 'z') ∨ ('0' ≤ c ∧ c ≤ '9') ∨ c = '_' ∨ c = '-') ∧
        ¬ ['-', '-'] <:+: t.toList ∧ t.toList.head? ≠ some '-' ∧ t.toList.getLast? ≠ some '-' := by
  have his (s : String) : IsSlug (slug s).toList := by
    rw [slug, String.toList_ofList]
    exact isSlug_slugChars _
  have hfixed (s : String) (h : IsSlug s.toList) : slug s = s := by
    rw [slug, h.slugChars_eq, String.ofList_toList]
  refine ⟨his, hfixed, fun s => hfixed _ (his s), fun t => ?_⟩
  rw [← isSlug_iff]
  constructor
  · rintro ⟨s, rfl⟩
    exact his s
  · exact fun h => ⟨t, hfixed t h⟩

end Outline

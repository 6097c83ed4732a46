import Mathlib.Data.Finset.Card
import Mathlib.Data.List.Range
import Outline.Rule.Heading

/-!
# Repeated headings

A heading repeats another one if its key is that of an earlier heading: its text without blanks around
it and in lower case, alone or together with its level. **The violations are those of the headings that
repeat one, in order, and each cites the first heading with its key** (`repeats_reported`).

* `repeatPlaces`: the places of the headings that repeat one;
* `IsRepeat`: a heading that repeats one, and the first one with its key;
* `RepeatsReported`: violations of the headings that repeat one, and of no others;
* `SameFirsts`: headings among which each key is found first at the same heading.
-/

namespace Outline

variable {κ : Type} {key : Heading → κ} {hs before seen : List Heading} {place : Nat} {h first : Heading}

/-! ## Repeats -/

/-- Whether the heading at a place has the key of an earlier one. -/
def RepeatsAt (key : Heading → κ) (hs : List Heading) (place : Nat) : Prop :=
  ∃ j < place, hs[j]?.map key = hs[place]?.map key

instance [DecidableEq κ] : DecidablePred (RepeatsAt key hs) := fun place =>
  inferInstanceAs (Decidable (∃ j < place, hs[j]?.map key = hs[place]?.map key))

/-- The places of the headings with the key of an earlier one, in order. -/
def repeatPlaces [DecidableEq κ] (key : Heading → κ) (hs : List Heading) : List Nat :=
  (List.range hs.length).filter (RepeatsAt key hs)

/-- The heading at a place, whose key an earlier one has, and the first heading with that key. -/
structure IsRepeat (key : Heading → κ) (hs : List Heading) (place : Nat) (first h : Heading) :
    Prop where
  here : hs[place]? = some h
  same : key first = key h
  earlier : ∃ j < place, hs[j]? = some first ∧ ∀ i < j, ∀ g, hs[i]? = some g → key g ≠ key h

/-- **Violations of the headings that repeat one**, in order, and of no others. -/
def RepeatsReported [DecidableEq κ] (key : Heading → κ) (message : (first h : Heading) → String)
    (hs : List Heading) (violations : List Violation) : Prop :=
  List.Forall₂ (fun place v => ∃ first h, IsRepeat key hs place first h ∧
    v = atHeadingLine h (message first h)) (repeatPlaces key hs) violations

/-- Headings that agree in a key agree in what is made of it. -/
theorem repeatPlaces_sublist {μ : Type} [DecidableEq κ] [DecidableEq μ] (f : κ → μ) :
    (repeatPlaces key hs).Sublist (repeatPlaces (f ∘ key) hs) := by
  refine List.monotone_filter_right _ fun i hi => ?_
  rw [decide_eq_true_eq] at hi ⊢
  obtain ⟨j, hj, hkey⟩ := hi
  refine ⟨j, hj, ?_⟩
  rw [← Option.map_map, hkey, Option.map_map]

/-! ## Headings met so far -/

/-- Each key is found first at the same heading. -/
def SameFirsts [BEq κ] (key : Heading → κ) (seen before : List Heading) : Prop :=
  ∀ k, seen.find? (key · == k) = before.find? (key · == k)

/-- A heading with a new key is kept. -/
theorem SameFirsts.keep [BEq κ] (hseen : SameFirsts key seen before) (h : Heading) :
    SameFirsts key (seen ++ [h]) (before ++ [h]) := by
  intro k
  rw [List.find?_append, List.find?_append, hseen k]

section Run

variable [BEq κ] [LawfulBEq κ]

/-- A heading with a key that was met adds nothing. -/
theorem SameFirsts.skip (hseen : SameFirsts key seen before)
    (hfirst : seen.find? (key · == key h) = some first) : SameFirsts key seen (before ++ [h]) := by
  intro k
  rw [List.find?_append, hseen k]
  by_cases hk : key h = k
  · subst hk
    rw [← hseen, hfirst]
    rfl
  · rw [List.find?_singleton, if_neg (by simpa using hk), Option.or_none]

theorem isRepeat_of_find? (hfirst : before.find? (key · == key h) = some first) :
    IsRepeat key (before ++ h :: hs) before.length first h := by
  obtain ⟨hkey, front, behind, rfl, hfront⟩ := List.find?_eq_some_iff_append.1 hfirst
  refine ⟨by simp, by simpa using hkey, front.length, by simp, by simp, fun i hi g hg => ?_⟩
  rw [List.append_assoc, List.getElem?_append_left hi] at hg
  simpa using hfront g (List.mem_of_getElem? hg)

theorem repeatsAt_length_iff : RepeatsAt key (before ++ h :: hs) before.length ↔
    (before.find? (key · == key h)).isSome := by
  rw [List.find?_isSome, RepeatsAt, List.getElem?_append_right le_rfl, Nat.sub_self]
  constructor
  · rintro ⟨j, hj, hkey⟩
    rw [List.getElem?_append_left hj, List.getElem?_eq_getElem hj] at hkey
    exact ⟨before[j], List.getElem_mem hj, beq_iff_eq.2 (Option.some.inj hkey)⟩
  · rintro ⟨g, hg, hkey⟩
    obtain ⟨j, hj, rfl⟩ := List.getElem_of_mem hg
    refine ⟨j, hj, ?_⟩
    rw [List.getElem?_append_left hj, List.getElem?_eq_getElem hj]
    exact congrArg some (beq_iff_eq.1 hkey)

variable [DecidableEq κ]

/-- The repeats among headings that stand behind others. -/
theorem forall₂_repeatsAfter (hseen : SameFirsts key seen before) :
    List.Forall₂ (fun place p => IsRepeat key (before ++ hs) place p.1 p.2)
      ((List.range' before.length hs.length).filter (RepeatsAt key (before ++ hs)))
      (repeatsAfter key seen hs) := by
  induction hs generalizing before seen with
  | nil => exact .nil
  | cons h hs ih =>
    have hrest {seen : List Heading} (hseen : SameFirsts key seen (before ++ [h])) :
        List.Forall₂ (fun place p => IsRepeat key (before ++ h :: hs) place p.1 p.2)
          ((List.range' (before.length + 1) hs.length).filter (RepeatsAt key (before ++ h :: hs)))
          (repeatsAfter key seen hs) := by
      simpa using ih hseen
    rw [List.length_cons, List.range'_succ, repeatsAfter]
    cases hfirst : seen.find? (key · == key h) with
    | some first =>
      have hbefore := hseen (key h) ▸ hfirst
      have hhere : RepeatsAt key (before ++ h :: hs) before.length :=
        repeatsAt_length_iff.2 (by rw [hbefore]; rfl)
      rw [List.filter_cons_of_pos (by simpa using hhere)]
      exact .cons (isRepeat_of_find? hbefore) (hrest (hseen.skip hfirst))
    | none =>
      have hhere : ¬RepeatsAt key (before ++ h :: hs) before.length := by
        rw [repeatsAt_length_iff, ← hseen, hfirst]
        exact Bool.false_ne_true
      rw [List.filter_cons_of_neg (by simpa using hhere)]
      exact hrest (hseen.keep h)

/-- **The repeats in a row of headings**, each at its place. -/
theorem forall₂_repeats : List.Forall₂ (fun place p => IsRepeat key hs place p.1 p.2)
    (repeatPlaces key hs) (repeats key hs) := by
  have hnone : SameFirsts key [] [] := fun _ => rfl
  rw [repeatPlaces, List.range_eq_range']
  exact forall₂_repeatsAfter hnone

/-- Each heading has a key that was met, or a new one. -/
theorem length_repeatsAfter (key : Heading → κ) (seen hs : List Heading) :
    (repeatsAfter key seen hs).length + ((seen ++ hs).map key).toFinset.card =
      hs.length + (seen.map key).toFinset.card := by
  induction hs generalizing seen with
  | nil => simp [repeatsAfter]
  | cons h hs ih =>
    rw [repeatsAfter]
    cases hfirst : seen.find? (key · == key h) with
    | some first =>
      have hmet : key h ∈ (seen ++ hs).map key := by
        have hsame := List.find?_some hfirst
        rw [← beq_iff_eq.1 hsame]
        exact List.mem_map_of_mem (List.mem_append_left hs (List.mem_of_find?_eq_some hfirst))
      have hset : ((seen ++ h :: hs).map key).toFinset = ((seen ++ hs).map key).toFinset := by
        rw [List.toFinset_eq_of_perm _ _ (List.perm_middle.map key), List.map_cons,
          List.toFinset_cons, Finset.insert_eq_of_mem (List.mem_toFinset.2 hmet)]
      have hrest := ih seen
      rw [hset, List.length_cons, List.length_cons]
      omega
    | none =>
      have hnew : key h ∉ (seen.map key).toFinset := by
        rw [List.mem_toFinset, List.mem_map]
        rintro ⟨g, hg, hsame⟩
        exact List.find?_eq_none.1 hfirst g hg (beq_iff_eq.2 hsame)
      have hcard : ((seen ++ [h]).map key).toFinset.card = (seen.map key).toFinset.card + 1 := by
        rw [List.toFinset_eq_of_perm _ _ (List.perm_append_comm.map key), List.singleton_append,
          List.map_cons, List.toFinset_cons, Finset.card_insert_of_notMem hnew]
      have hrest := ih (seen ++ [h])
      rw [List.append_assoc, List.singleton_append, hcard] at hrest
      dsimp only
      rw [List.length_cons]
      omega

/-- **The repeats and the keys** are as many as the headings. -/
theorem length_repeats (key : Heading → κ) (hs : List Heading) :
    (repeats key hs).length + (hs.map key).toFinset.card = hs.length :=
  length_repeatsAfter key [] hs

end Run

/-! ## Violations -/

/-- Violations made of the repeats are those of the headings that repeat one. -/
theorem repeatsReported_map [BEq κ] [LawfulBEq κ] [DecidableEq κ]
    (message : (first h : Heading) → String) :
    RepeatsReported key message hs
      ((repeats key hs).map fun p => atHeadingLine p.2 (message p.1 p.2)) :=
  List.forall₂_map_right_iff.2 (forall₂_repeats.imp fun _ p hp => ⟨p.1, p.2, hp, rfl⟩)

/-- **Repeated headings.** Exactly the headings whose text is that of an earlier one are reported, in
order, each with the line of the first heading with that text; and so for texts on one level. A heading
whose text is repeated on its level repeats the text, and what is reported without regard to levels are
all headings but one for each text. -/
theorem repeats_reported (hs : List Heading) :
    RepeatsReported headingKey
      (fun first h => "Duplicate heading '" ++ h.text ++ "'" ++ firstLine first) hs
      (checkUnique hs) ∧
    RepeatsReported (fun h => (h.level, headingKey h))
      (fun first h => "Duplicate " ++ levelName h.level ++ " heading '" ++ h.text ++ "'" ++
        firstLine first) hs (checkUniquePerLevel hs) ∧
    (repeatPlaces (fun h => (h.level, headingKey h)) hs).Sublist (repeatPlaces headingKey hs) ∧
    (checkUnique hs).length + (hs.map headingKey).toFinset.card = hs.length := by
  refine ⟨repeatsReported_map _, repeatsReported_map _, repeatPlaces_sublist Prod.snd, ?_⟩
  rw [checkUnique, List.length_map]
  exact length_repeats headingKey hs

/-- Of three headings with one text, the second and the third are reported, and both cite the first,
though only the third one stands on its level. -/
example :
    let hs : List Heading :=
      [⟨1, "Usage", 1, 3, "usage"⟩, ⟨2, " usage", 3, 4, "usage"⟩, ⟨1, "USAGE", 5, 3, "usage"⟩]
    repeatPlaces headingKey hs = [1, 2] ∧
      repeatPlaces (fun h => (h.level, headingKey h)) hs = [2] ∧
      (checkUnique hs).map (·.message) =
        ["Duplicate heading ' usage' (first occurrence at line 1)",
          "Duplicate heading 'USAGE' (first occurrence at line 1)"] := by
  decide +kernel

end Outline

import Mathlib
import Outline.Binding.Basic

/-!
# The names of sections

The search for a free number always ends, as a slug has more numbered forms than there are names
before it (`exists_free`). So **each section with a slug gets one name, and no two sections the
same**: its slug where that is free, and else the slug with the least number that makes it so
(`indexed_anchors`).

* `NameOf`: the name of a section behind others;
* `Indexed`: the names of sections in a row.
-/

namespace Outline

variable {taken : List String} {slug name : String}

/-! ## One name -/

theorem numbered_injective (slug : String) : Function.Injective (numbered slug) := by
  intro m n h
  have hlist := congrArg String.toList h
  simp only [numbered, String.toList_append] at hlist
  have hdigits := congrArg (fun ds => Nat.ofDigitChars 10 ds 0) (List.append_cancel_left hlist)
  simpa [Nat.toString_eq_ofList_toDigits] using hdigits

theorem numbered_ne_self (slug : String) (n : Nat) : numbered slug n ≠ slug := by
  intro h
  have hlength := congrArg (fun s => s.toList.length) h
  simp only [numbered, String.toList_append, List.length_append] at hlength
  have hhyphen : "-".toList.length = 1 := rfl
  omega

/-- **A taken slug has a free number**: among the names that are taken there is the slug itself, so
that one of as many numbered forms is left. -/
theorem exists_free (h : slug ∈ taken) :
    ∃ i < taken.length, numbered slug (i + 1) ∉ taken := by
  by_contra hnone
  push Not at hnone
  have hnodup : (slug :: (List.range taken.length).map fun i => numbered slug (i + 1)).Nodup := by
    refine List.nodup_cons.2 ⟨fun hmem => ?_, List.Nodup.map ?_ List.nodup_range⟩
    · obtain ⟨i, -, heq⟩ := List.mem_map.1 hmem
      exact numbered_ne_self slug (i + 1) heq
    · exact fun i j heq => Nat.succ_injective (numbered_injective slug heq)
  have hsubset :
      slug :: (List.range taken.length).map (fun i => numbered slug (i + 1)) ⊆ taken := by
    refine List.cons_subset.2 ⟨h, fun name hname => ?_⟩
    obtain ⟨i, hi, rfl⟩ := List.mem_map.1 hname
    exact hnone i (List.mem_range.1 hi)
  have hle := (List.subperm_of_subset hnodup hsubset).length_le
  rw [List.length_cons, List.length_map, List.length_range] at hle
  omega

/-- **The name of a section**, given the names of the sections before it: its slug unless that is
taken, and then the slug with the least number from 1 on that is not. No more numbers are tried than
there are names. -/
structure NameOf (taken : List String) (slug name : String) : Prop where
  own : slug ∉ taken → name = slug
  counted : slug ∈ taken → ∃ n, name = numbered slug n ∧ 1 ≤ n ∧ n ≤ taken.length ∧
    numbered slug n ∉ taken ∧ ∀ m, 1 ≤ m → m < n → numbered slug m ∈ taken

theorem nameOf_anchorName (taken : List String) (slug : String) :
    NameOf taken slug (anchorName taken slug) := by
  unfold anchorName
  split
  · rename_i htaken
    have hmem := List.contains_iff_mem.1 htaken
    refine ⟨fun hfree => absurd hmem hfree, fun _ => ?_⟩
    obtain ⟨i, hi, hfree⟩ := exists_free hmem
    cases hfind : (List.range (taken.length + 1)).find?
        fun i => !taken.contains (numbered slug (i + 1)) with
    | none =>
      have hall := List.find?_eq_none.1 hfind i (List.mem_range.2 (by omega))
      simp [hfree] at hall
    | some n =>
      obtain ⟨hn, -, hleast⟩ := List.find?_range_eq_some.1 hfind
      have hn : numbered slug (n + 1) ∉ taken := by simpa using hn
      have hbefore (m : Nat) (hm : m < n) : numbered slug (m + 1) ∈ taken := by
        simpa using hleast m hm
      have hle : n ≤ i := Nat.le_of_not_lt fun hlt => hfree (hbefore i hlt)
      refine ⟨n + 1, rfl, by omega, by omega, hn, fun m hpos hm => ?_⟩
      obtain ⟨m, rfl⟩ := Nat.exists_eq_add_of_le' hpos
      exact hbefore m (by omega)
  · rename_i hfree
    exact ⟨fun _ => rfl, fun hmem => absurd (List.contains_iff_mem.2 hmem) hfree⟩

theorem NameOf.not_mem (h : NameOf taken slug name) : name ∉ taken := by
  by_cases hmem : slug ∈ taken
  · obtain ⟨n, rfl, -, -, hfree, -⟩ := h.counted hmem
    exact hfree
  · rwa [h.own hmem]

/-! ## Names in a row -/

/-- **The names of sections in a row.** There is one for each section with a slug, in their order;
no two are the same; and each is the name of its section behind those before it. -/
structure Indexed (sections : List Section) (index : List (String × Section)) : Prop where
  sections : index.map (·.2) = sections.filter fun s => !s.heading.slug.isEmpty
  nodup : (index.map (·.1)).Nodup
  named : ∀ before name s after, index = before ++ (name, s) :: after →
    NameOf (before.map (·.1)) s.heading.slug name

/-- A member of a list with one more at its end stands in the list, or is the last one. -/
theorem concat_eq_append_cons {α : Type} {before after l : List α} {a b : α}
    (h : l ++ [b] = before ++ a :: after) :
    (∃ after', l = before ++ a :: after') ∨ (l = before ∧ a = b) := by
  obtain rfl | ⟨after, c, rfl⟩ := after.eq_nil_or_concat
  · obtain ⟨hl, hb⟩ := List.append_inj' h rfl
    exact .inr ⟨hl, (List.cons.inj hb).1.symm⟩
  · rw [List.concat_eq_append, ← List.cons_append, ← List.append_assoc] at h
    exact .inl ⟨after, (List.append_inj' h rfl).1⟩

/-- **One more section** is named behind the others, if it has a slug. -/
theorem Indexed.add {sections : List Section} {index : List (String × Section)}
    (h : Indexed sections index) (s : Section) :
    Indexed (sections ++ [s]) (addAnchor index s) := by
  unfold addAnchor
  split
  · rename_i hempty
    refine ⟨?_, h.nodup, h.named⟩
    rw [h.sections, List.filter_append, List.filter_singleton, hempty]
    exact (List.append_nil _).symm
  · rename_i hslug
    have hname := nameOf_anchorName (index.map (·.1)) s.heading.slug
    refine ⟨?_, ?_, fun before name s' after heq => ?_⟩
    · rw [List.map_append, h.sections, List.filter_append, List.filter_singleton,
        Bool.eq_false_iff.2 hslug]
      rfl
    · rw [List.map_append]
      refine h.nodup.append (List.nodup_singleton _) ?_
      exact List.disjoint_singleton.2 hname.not_mem
    · obtain ⟨after', hindex⟩ | ⟨rfl, hlast⟩ := concat_eq_append_cons heq
      · exact h.named before name s' after' hindex
      · cases hlast
        exact hname

theorem anchors_append_singleton (sections : List Section) (s : Section) :
    anchors (sections ++ [s]) = addAnchor (anchors sections) s := List.foldl_concat ..

/-- What sections are called does not depend on those behind them. -/
theorem anchors_prefix (front back : List Section) : anchors front <+: anchors (front ++ back) := by
  induction back using List.reverseRecOn with
  | nil => rw [List.append_nil]
  | append_singleton back s ih =>
    rw [← List.append_assoc, anchors_append_singleton]
    refine ih.trans ?_
    unfold addAnchor
    split
    · exact List.prefix_refl _
    · exact List.prefix_append _ _

/-- **Every section with a slug has a name of its own**, its slug or the first numbered form of it
that is free, and it keeps the name whatever sections follow. -/
theorem indexed_anchors (sections : List Section) : Indexed sections (anchors sections) ∧
    ∀ front back, sections = front ++ back → anchors front <+: anchors sections := by
  refine ⟨?_, fun front back h => h ▸ anchors_prefix front back⟩
  induction sections using List.reverseRecOn with
  | nil =>
    refine ⟨rfl, List.nodup_nil, fun before name s after h => ?_⟩
    exact absurd h.symm (List.append_ne_nil_of_right_ne_nil _ (List.cons_ne_nil _ _))
  | append_singleton sections s ih =>
    rw [anchors_append_singleton]
    exact ih.add s

end Outline

import Mathlib.Data.List.Chain
import Outline.Proofs.Document.Nesting
import Outline.Rule.Heading

/-!
# Levels of headings

A heading skips a level if it lies more than one level below the heading before it. The heading
before it need not be that of the section around it: in a row of sections, the section around is the
last one before that has a smaller level. **No heading skips a level exactly if each subsection lies
one level below its section** (`checkSkips_eq_nil_iff`).

* `Climbs`: a row of sections in which the level rises by at most one from each to the next;
* `lastShallower?_eq_some_iff`: the last section with a smaller level, and those behind it.
-/

namespace Outline

variable {sections before : List Section} {s : Section} {level : Nat}

/-! ## Rows of headings -/

/-- A row of sections in which the level rises by at most one from each to the next. -/
def Climbs (sections : List Section) : Prop :=
  sections.IsChain fun s t => t.heading.level ≤ s.heading.level + 1

theorem skips_cons_cons (g h : Heading) (hs : List Heading) :
    skips (g :: h :: hs) =
      (if g.level + 1 < h.level then [(g, h)] else []) ++ skips (h :: hs) := by
  change List.filter _ ((g, h) :: neighbours (h :: hs)) = _
  rw [List.filter_cons]
  simp only [decide_eq_true_eq]
  split
  · rfl
  · rfl

/-- Nothing is reported about a row exactly if no level is skipped from one to the next. -/
theorem checkSkips_map_eq_nil_iff :
    checkSkips (sections.map (·.heading)) = [] ↔ Climbs sections := by
  rw [checkSkips, List.map_eq_nil_iff]
  induction sections with
  | nil => exact iff_of_true rfl .nil
  | cons s rest ih =>
    cases rest with
    | nil => exact iff_of_true rfl (.singleton s)
    | cons t rest =>
      rw [Climbs, List.isChain_cons_cons, List.map_cons, List.map_cons, skips_cons_cons,
        List.append_eq_nil_iff]
      refine and_congr ?_ ih
      split
      · rename_i hskip
        exact iff_of_false (List.cons_ne_nil _ _) (Nat.not_le.2 hskip)
      · rename_i hskip
        exact iff_of_true rfl (Nat.not_lt.1 hskip)

/-- The last section with a smaller level: those behind it are not below the level. -/
theorem lastShallower?_eq_some_iff : lastShallower? level before = some s ↔
    s.heading.level < level ∧ ∃ front behind, before = front ++ s :: behind ∧
      ∀ t ∈ behind, level ≤ t.heading.level := by
  unfold lastShallower?
  rw [List.find?_eq_some_iff_append, decide_eq_true_eq]
  refine and_congr_right fun _ => ⟨?_, ?_⟩
  · rintro ⟨behind, front, hsplit, hbehind⟩
    refine ⟨front.reverse, behind.reverse, ?_, fun t ht => ?_⟩
    · rw [← List.reverse_reverse before, hsplit, List.reverse_append, List.reverse_cons,
        List.append_assoc, List.singleton_append]
    · simpa using hbehind t (List.mem_reverse.1 ht)
  · rintro ⟨front, behind, rfl, hbehind⟩
    refine ⟨behind.reverse, front.reverse, ?_, fun t ht => ?_⟩
    · rw [List.reverse_append, List.reverse_cons, List.append_assoc, List.singleton_append]
    · simpa using hbehind t (List.mem_reverse.1 ht)

/-- Where no level is skipped, a section lies one level below the last shallower one before it: the
next one behind that one is not below the section, and at most one level below that one. -/
theorem Climbs.level_eq {t : Section} {later : List Section}
    (h : Climbs (before ++ t :: later)) (hs : lastShallower? t.heading.level before = some s) :
    t.heading.level = s.heading.level + 1 := by
  obtain ⟨hlt, front, behind, rfl, hbehind⟩ := lastShallower?_eq_some_iff.1 hs
  suffices hle : t.heading.level ≤ s.heading.level + 1 from Nat.le_antisymm hle hlt
  rw [Climbs, List.append_assoc, List.cons_append] at h
  cases behind with
  | nil => exact (List.isChain_append_cons_cons.1 h).2.1
  | cons u behind =>
    exact (hbehind u List.mem_cons_self).trans (List.isChain_append_cons_cons.1 h).2.1

/-- If each section lies one level below the last shallower one before it, no level is skipped: a
section that is deeper than the one before it lies in that one. -/
theorem climbs_of_level_eq (h : ∀ before t later s, sections = before ++ t :: later →
    lastShallower? t.heading.level before = some s → t.heading.level = s.heading.level + 1) :
    Climbs sections := by
  refine List.isChain_iff_forall_rel_of_append_cons_cons.2 fun s t front later hsplit => ?_
  by_cases hlt : s.heading.level < t.heading.level
  · have hlast : lastShallower? t.heading.level (front ++ [s]) = some s :=
      lastShallower?_eq_some_iff.2 ⟨hlt, front, [], rfl, List.forall_mem_nil _⟩
    rw [h (front ++ [s]) t later s (by rw [hsplit, List.append_assoc, List.singleton_append]) hlast]
  · omega

/-! ## Trees of sections -/

/-- In sections that lie where their levels say, no level is skipped along the walk exactly if each
section lies one level below the one that it lies in. -/
theorem ParentsShallower.climbs_iff (h : ParentsShallower sections) :
    Climbs (walkAll sections) ↔ ∀ p ∈ walkAllUnder [] sections, ∀ s ∈ p.ancestors.head?,
      p.self.heading.level = s.heading.level + 1 := by
  -- the section around the one at `i` is the last shallower one among the first `i`
  constructor
  · intro hclimbs p hp s hs
    obtain ⟨i, hi⟩ := List.mem_iff_getElem?.1 hp
    rw [h i p hi] at hs
    have hself : (walkAll sections)[i]? = some p.self := by
      rw [← map_self_walkAllUnder sections [], List.getElem?_map, hi]
      rfl
    obtain ⟨hlt, hget⟩ := List.getElem?_eq_some_iff.1 hself
    have hsplit : walkAll sections =
        (walkAll sections).take i ++ p.self :: (walkAll sections).drop (i + 1) := by
      rw [← hget, List.cons_getElem_drop_succ, List.take_append_drop]
    rw [hsplit] at hclimbs
    exact hclimbs.level_eq hs
  · intro hlevels
    refine climbs_of_level_eq fun before t later s hsplit hs => ?_
    have hself : ((walkAllUnder [] sections).map PlacedSection.self)[before.length]? = some t := by
      rw [map_self_walkAllUnder, hsplit, List.getElem?_append_right le_rfl, Nat.sub_self]
      rfl
    rw [List.getElem?_map, Option.map_eq_some_iff] at hself
    obtain ⟨p, hp, rfl⟩ := hself
    refine hlevels p (List.mem_of_getElem? hp) s ?_
    rw [h before.length p hp, hsplit, List.take_left]
    exact hs

/-- **No heading of a document skips a level exactly if each subsection lies one level below its
section.** -/
theorem checkSkips_eq_nil_iff {text path : String} {d : Document}
    (h : parseDocument text path = .ok d) : checkSkips d.headings = [] ↔
      ∀ p ∈ d.placedSections, ∀ s ∈ p.ancestors.head?,
        p.self.heading.level = s.heading.level + 1 := by
  obtain ⟨body, hbody⟩ := sections_of_parseDocument h
  have hparents : ParentsShallower d.sections := hbody ▸ parents_nest _
  exact checkSkips_map_eq_nil_iff.trans hparents.climbs_iff

/-- A heading of the third level, and another one below one of the first level. -/
def skippingDocument : Document :=
  { path := ""
    text := "### A\n# B\n### C\n"
    frontMatter := none
    preamble := ⟨1, 4, "", {}⟩
    sections := [sampleSection 3 "A" 1 1 [], sampleSection 1 "B" 2 4 [sampleSection 3 "C" 3 4 []]] }

theorem parseDocument_skipping :
    parseDocument "### A\n# B\n### C\n" "" = .ok skippingDocument := by
  have hsplit : splitFrontMatter "### A\n# B\n### C\n" = .ok (none, "### A\n# B\n### C\n") := by cbv
  have hlines : cutOn '\n' "### A\n# B\n### C\n".toList =
      ["### A".toList, "# B".toList, "### C".toList, []] := by cbv
  have hevents : Markdown.documentEvents "### A\n# B\n### C\n".toList =
      [.heading 3 0 1 [.text ['A']], .heading 1 1 2 [.text ['B']], .heading 3 2 3 [.text ['C']]] := by
    cbv
  unfold parseDocument
  rw [hsplit]
  dsimp only [bind, Except.bind]
  rw [hlines, hevents]
  rfl

/-- The first heading skips nothing, whatever its level is; the last one skips a level. -/
theorem checkSkips_skipping : parseDocument "### A\n# B\n### C\n" "" = .ok skippingDocument ∧
    (checkSkips skippingDocument.headings = [] ↔
      ∀ p ∈ skippingDocument.placedSections, ∀ s ∈ p.ancestors.head?,
        p.self.heading.level = s.heading.level + 1) ∧
    checkSkips skippingDocument.headings =
      [reported "heading" "Heading level skipped: 'C' (h3) after h1" (3, 5)] :=
  ⟨parseDocument_skipping, checkSkips_eq_nil_iff parseDocument_skipping, by decide⟩

end Outline

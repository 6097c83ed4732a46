import Outline.Proofs.Document.Alike
import Outline.Proofs.Rule.Literal
import Outline.Proofs.Schema.Sketch

/-!
# Derived schemas

The schema that is derived from a document asks for the headings of the document, in their written
form. **It accepts the documents with headings of the same levels and texts, in order**
(`derived_accepts_iff`), if no heading of the document is without a text.

A heading without a text is written with a blank behind the number signs. The blank is lost when the
schema is loaded, but not when headings are compared with it, so that such an element accepts
nothing. Hence **the derived schema accepts the document itself exactly if each of its headings has
a text** (`derived_accepts_self_iff`).

* `accepts_written_iff`: what the element for a heading accepts;
* `sameShape_elementsOf_iff`: the sections of the shape of a derived schema.
-/

namespace Outline

/-! ## Written headings -/

/-- A written heading tells the level and the text. -/
theorem Heading.written_inj {h h' : Heading} : h.written = h'.written ↔ h.key = h'.key := by
  have hinj : ∀ (n m : Nat) (cs ds : List Char),
      List.replicate n '#' ++ ' ' :: cs = List.replicate m '#' ++ ' ' :: ds ↔ n = m ∧ cs = ds := by
    intro n
    induction n with
    | zero =>
      intro m cs ds
      cases m with
      | zero => simp
      | succ m => simp [List.replicate_succ]
    | succ n ih =>
      intro m cs ds
      cases m with
      | zero => simp [List.replicate_succ]
      | succ m => simp [List.replicate_succ, ih]
  unfold written writtenHeading key
  rw [String.ofList_inj, hinj, String.toList_inj, Prod.mk.injEq]

/-- A heading with a text is written without blanks around it. -/
theorem Heading.Proper.strip_written {h : Heading} (hproper : h.Proper) (htext : h.text ≠ "") :
    strip h.written = h.written := by
  have htrim := trim_eq_self_iff.1 (strip_eq_self_iff.1 hproper.text)
  have hne : h.text.toList ≠ [] := fun hnil => htext (String.toList_inj.1 hnil)
  rw [strip_eq_self_iff, Heading.written, writtenHeading, String.toList_ofList, trim_eq_self_iff]
  constructor
  · intro c hc
    obtain ⟨n, hn⟩ := Nat.exists_eq_succ_of_ne_zero (Nat.pos_iff_ne_zero.1 hproper.level)
    rw [hn, List.replicate_succ, List.cons_append, List.head?_cons] at hc
    rw [← Option.some.inj hc]
    decide
  · intro c hc
    rw [List.getLast?_append_of_ne_nil _ (List.cons_ne_nil _ _),
      List.getLast?_cons_of_ne_nil hne] at hc
    exact htrim.2 c hc

/-- A heading without a text is written with a blank at the end, which is stripped. -/
theorem Heading.strip_written_of_empty {h : Heading} (htext : h.text = "") :
    strip h.written = String.ofList (List.replicate h.level '#') := by
  have hleft : trimLeft isBlank (List.replicate h.level '#' ++ [' ']) =
      if h.level = 0 then [] else List.replicate h.level '#' ++ [' '] := by
    cases h.level with
    | zero => rfl
    | succ n => rfl
  rw [strip, Heading.written, writtenHeading, htext, String.toList_ofList]
  refine congrArg String.ofList ?_
  change trimRight isBlank (trimLeft isBlank (List.replicate h.level '#' ++ [' '])) = _
  rw [hleft]
  cases h.level with
  | zero => rfl
  | succ n =>
    rw [if_neg (Nat.succ_ne_zero n), trimRight_eq_rdropWhile,
      List.rdropWhile_concat_pos _ _ _ (by decide)]
    refine trimRight_eq_self_iff.2 fun c hc => ?_
    rw [List.eq_of_mem_replicate (List.mem_of_getLast? hc)]
    decide

theorem accepts_literal (path text : String) (h : Heading) :
    (HeadingSpec.literal text).accepts path h = (h.written == strip text) := rfl

/-- **The element for a heading accepts the headings of the same level and text**, and nothing if
there is no text. -/
theorem accepts_written_iff {path : String} {h h' : Heading} (hproper : h.Proper) :
    (HeadingSpec.literal (strip h.written)).accepts path h' = true ↔
      h.text ≠ "" ∧ h.key = h'.key := by
  rw [accepts_literal, strip_strip, beq_iff_eq]
  by_cases htext : h.text = ""
  · -- The blank behind the signs is stripped from the schema, but not from the heading.
    refine iff_of_false (fun he => ?_) fun hand => hand.1 htext
    rw [Heading.strip_written_of_empty htext, Heading.written, writtenHeading,
      String.ofList_inj] at he
    have hblank : ' ' ∈ List.replicate h.level '#' :=
      he ▸ List.mem_append_right _ List.mem_cons_self
    exact absurd (List.eq_of_mem_replicate hblank) (by decide)
  · rw [hproper.strip_written htext, eq_comm, Heading.written_inj]
    exact (and_iff_right htext).symm

/-! ## Derived elements -/

theorem plain_elementsOf (sections : List Section) : Plain (elementsOf sections) := by
  induction sections using sections_induction with
  | nil => exact .nil
  | cons s rest ihs ih =>
    rw [elementsOf, Section.element_eq]
    exact .cons rfl rfl rfl ihs ih

/-- What holds of an element that asks for a heading only holds of each derived element. -/
theorem each_elementsOf {P : Element → Prop}
    (h : ∀ text children, P { heading := .literal text, children := children })
    (sections : List Section) : EachElement P (elementsOf sections) := by
  induction sections using sections_induction with
  | nil => exact .nil
  | cons s rest ihs ih =>
    rw [elementsOf, Section.element_eq]
    exact .cons (h _ _) ihs ih

/-- **Sections have the shape of a derived schema exactly if they nest as the sections that it was
derived from**, and each of those has a text. -/
theorem sameShape_elementsOf_iff {path : String} {sections : List Section} :
    ∀ {others : List Section}, (∀ s ∈ walkAll sections, s.heading.Proper) →
      (SameShape (HeadingSpec.accepts path) (elementsOf sections) others ↔
        (∀ s ∈ walkAll sections, s.heading.text ≠ "") ∧ Alike sections others) := by
  induction sections using sections_induction with
  | nil =>
    intro others _
    constructor
    · intro h
      cases h
      exact ⟨fun _ h => absurd h List.not_mem_nil, .nil⟩
    · rintro ⟨-, h⟩
      cases h
      exact .nil
  | cons s rest ihs ih =>
    intro others hproper
    rw [walkAll_cons, List.forall_mem_cons, List.forall_mem_append] at hproper
    obtain ⟨hs, hchildren, hrest⟩ := hproper
    rw [elementsOf, walkAll_cons, List.forall_mem_cons, List.forall_mem_append]
    constructor
    · intro h
      cases h with
      | cons heading below later =>
        rw [Section.element_eq] at heading below
        obtain ⟨htext, hkey⟩ := (accepts_written_iff hs).1 heading
        obtain ⟨htexts, halike⟩ := (ihs hchildren).1 below
        obtain ⟨htexts', halike'⟩ := (ih hrest).1 later
        exact ⟨⟨htext, htexts, htexts'⟩, .cons hkey halike halike'⟩
    · rintro ⟨⟨htext, htexts, htexts'⟩, h⟩
      cases h with
      | cons hkey halike halike' =>
        refine .cons ?_ ?_ ((ih hrest).2 ⟨htexts', halike'⟩)
        · rw [Section.element_eq]
          exact (accepts_written_iff hs).2 ⟨htext, hkey⟩
        · rw [Section.element_eq]
          exact (ihs hchildren).2 ⟨htexts, halike⟩

/-! ## Acceptance -/

/-- **The schema that asks for the headings of sections reports nothing exactly in documents of
their shape.** -/
theorem evaluate_elementsOf {text path : String} {d : Document}
    (h : parseDocument text path = .ok d) (sections : List Section) (source : String)
    (around : Surroundings) (root : String) :
    ∃ vs, (evaluate around { elements := elementsOf sections, source := source } root d).journal.1 =
        .ok vs ∧
      (vs = [] ↔ SameShape (HeadingSpec.accepts d.path) (elementsOf sections) d.sections) := by
  have hreg := regular_of_parseDocument h
  -- The elements ask for headings only, so whatever is bound to them meets their requirements.
  have hbare : ∀ n ∈ allNodes (bindDocument (HeadingSpec.accepts d.path) d
      (elementsOf sections)).roots, n.element.rules = {} := by
    rw [bindDocument_roots _ _ hreg]
    exact fun n hn => ((each_elementsOf (P := (·.rules = {})) (fun _ _ => rfl)
      sections).of_mem_allNodes n hn).1
  have hmeets : ∀ p ∈ (bindDocument (HeadingSpec.accepts d.path) d
      (elementsOf sections)).boundNodes, p.Meets := by
    intro p hp
    have hrules := hbare p.node (node_mem_allNodes (List.mem_filter.1 hp).1)
    constructor <;> rw [hrules] <;> exact fun _ h => absurd h List.not_mem_nil
  obtain ⟨vs, hvs⟩ := violations_of_single (HeadingSpec.accepts d.path) hreg
    (each_elementsOf (fun _ _ => rfl) sections)
  refine ⟨_, evaluate_eq_ok hreg ⟨rfl, rfl, rfl⟩
    (each_elementsOf (fun text _ => ⟨text, rfl⟩) sections) hmeets around root hvs, ?_⟩
  rw [List.map_eq_nil_iff, ← structureFindings_eq_nil_iff _ hreg (plain_elementsOf sections),
    ← List.length_eq_zero_iff, length_of_mapM_eq_ok hvs, List.length_eq_zero_iff]

/-- **The schema derived from a document with headings loads, and reports nothing exactly in the
documents with headings of the same levels and texts**, if all headings that it was derived from
have texts; else it reports something in every document. -/
theorem evaluate_derived {text path text' path' : String} {a b : Document}
    (ha : parseDocument text path = .ok a) (hb : parseDocument text' path' = .ok b)
    (hsome : a.headings ≠ []) (source : String) :
    ∃ sketches schema, a.sketch? = some sketches ∧
      loadSchema (Sketch.valueOf sketches) source = .ok schema ∧
      ∀ (around : Surroundings) (root : String),
        ∃ vs, (evaluate around schema root b).journal.1 = .ok vs ∧
          (vs = [] ↔ (∀ h ∈ a.headings, h.text ≠ "") ∧
            a.headings.map Heading.key = b.headings.map Heading.key) := by
  have hsections : a.sections.isEmpty = false := by
    cases hnil : a.sections with
    | nil => exact absurd (by rw [Document.headings, Document.allSections, hnil]; rfl) hsome
    | cons s ss => rfl
  refine ⟨_, _, by rw [Document.sketch?, hsections]; rfl, loadSchema_sketch a.sections source,
    fun around root => ?_⟩
  obtain ⟨vs, hvs, hnone⟩ := evaluate_elementsOf hb a.sections source around root
  refine ⟨vs, hvs, hnone.trans ?_⟩
  rw [sameShape_elementsOf_iff (proper_of_parseDocument ha), alike_sections_iff ha hb,
    Document.headings, List.forall_mem_map]
  rfl

/-- **A derived schema accepts exactly the documents with headings of the same levels and texts**,
in order, if the document that it was derived from has headings and each of them has a text. -/
theorem derived_accepts_iff {text path text' path' : String} {a b : Document}
    (ha : parseDocument text path = .ok a) (hb : parseDocument text' path' = .ok b)
    (hsome : a.headings ≠ []) (htexts : ∀ h ∈ a.headings, h.text ≠ "") (source : String) :
    ∃ sketches schema, a.sketch? = some sketches ∧
      loadSchema (Sketch.valueOf sketches) source = .ok schema ∧
      ∀ (around : Surroundings) (root : String),
        ∃ vs, (evaluate around schema root b).journal.1 = .ok vs ∧
          (vs = [] ↔ a.headings.map (fun h => (h.level, h.text)) =
            b.headings.map (fun h => (h.level, h.text))) := by
  obtain ⟨sketches, schema, hsketch, hload, hevaluate⟩ := evaluate_derived ha hb hsome source
  refine ⟨sketches, schema, hsketch, hload, fun around root => ?_⟩
  obtain ⟨vs, hvs, hnone⟩ := hevaluate around root
  exact ⟨vs, hvs, hnone.trans (and_iff_right htexts)⟩

theorem derived_accepts_sample : parseDocument sampleText "" = .ok sampleDocument ∧
    sampleDocument.headings ≠ [] ∧ (∀ h ∈ sampleDocument.headings, h.text ≠ "") ∧
    ∃ sketches schema, sampleDocument.sketch? = some sketches ∧
      loadSchema (Sketch.valueOf sketches) "" = .ok schema ∧
      ∀ (around : Surroundings) (root : String),
        ∃ vs, (evaluate around schema root sampleDocument).journal.1 = .ok vs ∧
          (vs = [] ↔ sampleDocument.headings.map (fun h => (h.level, h.text)) =
            sampleDocument.headings.map (fun h => (h.level, h.text))) :=
  have htexts : ∀ h ∈ sampleDocument.headings, h.text ≠ "" := by decide
  ⟨parseDocument_sample, by decide, htexts,
    derived_accepts_iff parseDocument_sample parseDocument_sample (by decide) htexts ""⟩

/-- **A derived schema accepts the document that it was derived from exactly if each heading has a
text.** -/
theorem derived_accepts_self_iff {text path : String} {d : Document}
    (h : parseDocument text path = .ok d) (hsome : d.headings ≠ []) (source : String) :
    ∃ sketches schema, d.sketch? = some sketches ∧
      loadSchema (Sketch.valueOf sketches) source = .ok schema ∧
      ∀ (around : Surroundings) (root : String),
        ∃ vs, (evaluate around schema root d).journal.1 = .ok vs ∧
          (vs = [] ↔ ∀ h ∈ d.headings, h.text ≠ "") := by
  obtain ⟨sketches, schema, hsketch, hload, hevaluate⟩ := evaluate_derived h h hsome source
  refine ⟨sketches, schema, hsketch, hload, fun around root => ?_⟩
  obtain ⟨vs, hvs, hnone⟩ := hevaluate around root
  exact ⟨vs, hvs, hnone.trans (and_iff_left rfl)⟩

theorem derived_accepts_self_sample : parseDocument sampleText "" = .ok sampleDocument ∧
    sampleDocument.headings ≠ [] ∧
    ∃ sketches schema, sampleDocument.sketch? = some sketches ∧
      loadSchema (Sketch.valueOf sketches) "" = .ok schema ∧
      ∀ (around : Surroundings) (root : String),
        ∃ vs, (evaluate around schema root sampleDocument).journal.1 = .ok vs ∧
          (vs = [] ↔ ∀ h ∈ sampleDocument.headings, h.text ≠ "") :=
  ⟨parseDocument_sample, by decide, derived_accepts_self_iff parseDocument_sample (by decide) ""⟩

/-- A document with one heading, which has no text. -/
def untitledDocument : Document :=
  { path := ""
    text := "#\n"
    frontMatter := none
    preamble := ⟨1, 2, "", {}⟩
    sections := [⟨⟨1, "", 1, 2, slug ""⟩, ⟨1, 2, "", {}⟩, []⟩] }

theorem parseDocument_untitled : parseDocument "#\n" "" = .ok untitledDocument := by
  have hsplit : splitFrontMatter "#\n" = .ok (none, "#\n") := by cbv
  have hlines : cutOn '\n' "#\n".toList = ["#".toList, []] := by cbv
  have hevents : Markdown.documentEvents "#\n".toList = [.heading 1 0 1 []] := by cbv
  unfold parseDocument
  rw [hsplit]
  dsimp only [bind, Except.bind]
  rw [hlines, hevents]
  rfl

/-- The schema derived from a document whose only heading has no text reports a violation in it. -/
theorem untitled_rejected : parseDocument "#\n" "" = .ok untitledDocument ∧
    untitledDocument.headings ≠ [] ∧
    ∃ sketches schema, untitledDocument.sketch? = some sketches ∧
      loadSchema (Sketch.valueOf sketches) "" = .ok schema ∧
      ∀ (around : Surroundings) (root : String),
        ∃ vs, (evaluate around schema root untitledDocument).journal.1 = .ok vs ∧ vs ≠ [] := by
  obtain ⟨sketches, schema, hsketch, hload, hevaluate⟩ :=
    evaluate_derived parseDocument_untitled parseDocument_untitled (by decide) ""
  refine ⟨parseDocument_untitled, by decide, sketches, schema, hsketch, hload,
    fun around root => ?_⟩
  obtain ⟨vs, hvs, hnone⟩ := hevaluate around root
  exact ⟨vs, hvs, fun hnil => (hnone.1 hnil).1 _ (List.mem_singleton_self _) rfl⟩

end Outline

import Outline.Proofs.Structure.Rows
import Outline.Proofs.Template.Meets

/-!
# Templates satisfy their schemas

The template for a schema is a text, and the text is read as a document with one section for each
element, which holds what the element requires. So **there are no violations in a template that is
checked with its schema** (`template_satisfies`), if the schema can be filled.

Two lists in a row are not there for a reader: the second one goes on with the first. A schema that
requires two lists in a section is not satisfied by its template (`twoLists_rejected`).
-/

namespace Outline

open Markdown

/-! ## Sections of templates -/

/-- A section with the heading of an element that holds what is required of it. -/
structure Suits (e : Element) (h : Heading) (b : Body) : Prop where
  accepted : ∀ path, HeadingSpec.accepts path e.heading h = true
  fillable : e.rules.Fillable
  meets : b.Meets e.rules

theorem strip_writtenHeading {level : Nat} (hpos : 1 ≤ level) {title : List Char}
    (h : PlainText title) (hsome : title ≠ []) :
    strip (writtenHeading level (String.ofList title)) =
      writtenHeading level (String.ofList title) := by
  obtain ⟨n, rfl⟩ : ∃ n, level = n + 1 := ⟨level - 1, by omega⟩
  rw [strip_eq_self_iff, toList_writtenHeading, trim_eq_self_iff]
  refine ⟨fun c hc => ?_, ?_⟩
  · rw [← Option.mem_some.1 hc]
    decide
  · rw [List.getLast?_append_of_ne_nil _ (List.cons_ne_nil _ _), ← List.singleton_append,
      List.getLast?_append_of_ne_nil _ hsome]
    exact (trim_eq_self_iff.1 h.trimmed).2

/-- **The section that a portion for an element is read as suits the element.** -/
theorem Portion.ReadAs.suits {p : Portion} {row : Nat × Element} {s : Section} (h : p.ReadAs s)
    (hp : p.For row) : Suits row.2 s.heading s.body := by
  refine ⟨fun path => ?_, hp.fillable, ?_, fun text htext => ?_⟩
  · have hwritten : s.heading.written = writtenHeading p.level (String.ofList p.title) := by
      rw [Heading.written, h.level, h.text]
    rw [hp.heading, HeadingSpec.accepts, HeadingSpec.judge, hwritten,
      strip_writtenHeading hp.sound.level_pos hp.sound.title_plain hp.sound.title_some]
    exact beq_self_eq_true _
  · obtain ⟨lead, hlead, hfillers⟩ := hp.fillers
    exact ⟨lead, hlead, hfillers ▸ h.shows⟩
  · have hline : ("<!-- " ++ ("- " ++ text) ++ " -->").toList ∈ charLinesOf (.gap :: p.body) :=
      List.mem_flatMap.2
        ⟨_, List.mem_cons_of_mem _ (hp.texts text htext), List.mem_singleton_self _⟩
    have hinside : text.toList <:+: ("<!-- " ++ ("- " ++ text) ++ " -->").toList :=
      ⟨"<!-- - ".toList, " -->".toList, by simp only [String.toList_append]; rfl⟩
    rw [h.content]
    refine hinside.trans (infix_trim (infix_joinLines hline) ?_ ?_)
    · rw [toList_comment]
      exact fun c hc => Option.mem_some.1 hc ▸ by decide
    · have hlast : " -->".toList.getLast? = some '>' := rfl
      rw [String.toList_append, List.getLast?_append_of_ne_nil _ (by decide), hlast]
      exact fun c hc => Option.mem_some.1 hc ▸ by decide

/-! ## Evaluation -/

/-- **A template satisfies the schema that it was made for.** -/
theorem template_satisfies {schema : Schema} (h : schema.Fillable) (path : String) :
    ∃ text d, template schema = .ok text ∧ parseDocument text path = .ok d ∧
      ∀ (around : Surroundings) (root : String),
        (evaluate around schema root d).journal.1 = .ok [] := by
  obtain ⟨text, d, portions, flat, htemplate, hparse, -, hnest, hportions, hread⟩ :=
    h.exists_document path
  have hreg := regular_of_parseDocument hparse
  -- The sections stand in a row with the levels of the elements, so they nest as the elements do.
  have hgrown : Grown Suits schema.elements d.sections := by
    rw [hnest]
    refine grown_nest (forall₂_trans (fun row p s hp hs => ?_) hportions hread)
    exact ⟨hs.level.trans hp.level, hs.suits hp⟩
  have haccepts : ∀ e heading b, Suits e heading b →
      HeadingSpec.accepts d.path e.heading heading = true := fun _ _ _ hsuits =>
    hsuits.accepted d.path
  have hcount : EachElement (·.count = none) schema.elements :=
    each_of_rowsOf _ fun row hrow => (h.elements row hrow).count
  have hsingle : EachElement (·.isRepeatable = false) schema.elements :=
    hcount.imp fun e he => by rw [Element.isRepeatable, he]
  have hliteral : EachElement Element.IsLiteral schema.elements :=
    each_of_rowsOf _ fun row hrow => by
      obtain ⟨title, -, -, hheading⟩ := (h.elements row hrow).heading
      exact ⟨_, hheading⟩
  obtain ⟨hasked, hquestions⟩ := hliteral.answerable hreg (HeadingSpec.accepts d.path)
  refine ⟨text, d, htemplate, hparse, fun around root =>
    (evaluate_local_eq_nil_iff h.toLocal around).2 ⟨hasked, hquestions,
      structureFindings_eq_nil_of_sameShape hreg hcount (hgrown.sameShape haccepts),
      fun p hp => ?_⟩⟩
  -- The section of a bound node is the one that was made for its element.
  have hnode := node_mem_allNodes (List.mem_filter.1 hp).1
  rw [bindDocument_roots _ schema.elements hreg] at hnode
  have hroots := hgrown
  rw [← sectionsAfter_zero hreg] at hroots
  obtain ⟨s, hs, hsuits⟩ := hroots.of_mem_allNodes haccepts 0 0 hsingle hreg p.node hnode
  exact hsuits.meets.placed hsuits.fillable hs rfl

/-- A schema with a requirement of each kind, and an optional heading below. -/
def requiringSchema : Schema :=
  { elements :=
      [{ heading := .literal "# User guide"
         rules :=
          { requiredText := [.literal "MIT"]
            codeBlocks := [{ bounds := { min := 2, max := 3 }, lang := "python" }]
            images := [{ bounds := { min := 1 }, requireAlt := true, formats := ["png"] }]
            tables := [{ bounds := { min := 1 }, minColumns := 3, requiredHeaders := ["Name"] }]
            lists := [{ bounds := { min := 1 }, kind := some .ordered, minItems := 2 }] }
         children := [{ heading := .literal "## Usage", optional := true }] }] }

theorem short_of_le {n : Nat} (h : n ≤ 10) : Amount.Short ⟨n, none⟩ :=
  ⟨rfl, Nat.lt_of_le_of_lt h ((Nat.pow_one 10).symm.trans_lt
    (Nat.pow_lt_pow_right (by decide) (by decide)))⟩

theorem satisfiable_of_le {least most : Nat} (hleast : least ≤ 10) (hmost : most ≤ 10)
    (h : most = 0 ∨ least ≤ most) : Bounds.Satisfiable ⟨⟨least, none⟩, ⟨most, none⟩⟩ :=
  ⟨short_of_le hleast, short_of_le hmost, h⟩

theorem fillable_requiringRules : (requiringSchema.elements.headI).rules.Fillable where
  requiredText := List.forall_mem_singleton.2
    ⟨"MIT", rfl, (by decide : ∀ c ∈ "MIT".toList, isAsciiAlnum c = true)⟩
  forbiddenText := rfl
  codeBlocks := List.forall_mem_singleton.2 ⟨satisfiable_of_le (by decide) (by decide) (by decide),
    (by decide : ∀ c ∈ "python".toList, isAsciiAlnum c = true)⟩
  images := List.forall_mem_singleton.2 ⟨satisfiable_of_le (by decide) (by decide) (by decide),
    List.forall_mem_singleton.2 (by decide : ∀ c ∈ "png".toList, isAsciiAlnum c = true)⟩
  tables := List.forall_mem_singleton.2 ⟨satisfiable_of_le (by decide) (by decide) (by decide),
    short_of_le (by decide),
    List.forall_mem_singleton.2 (by decide : ∀ c ∈ "Name".toList, isAsciiAlnum c = true)⟩
  lists := List.forall_mem_singleton.2 ⟨satisfiable_of_le (by decide) (by decide) (by decide),
    short_of_le (by decide), by decide, fun _ _ => by decide⟩
  one := ⟨by decide, by decide, by decide, by decide⟩
  wordCount := rfl

theorem fillable_noRules : SectionRules.Fillable {} where
  requiredText := nofun
  forbiddenText := rfl
  codeBlocks := nofun
  images := nofun
  tables := nofun
  lists := nofun
  one := ⟨by decide, by decide, by decide, by decide⟩
  wordCount := rfl

theorem fillable_requiringSchema : requiringSchema.Fillable where
  links := rfl
  headings := rfl
  frontMatter := rfl
  elements := List.forall_mem_cons.2
    ⟨⟨by decide, ⟨"User guide".toList, ⟨by decide, by decide⟩, by decide, rfl⟩, rfl, rfl,
      fillable_requiringRules⟩,
    List.forall_mem_singleton.2
      ⟨by decide, ⟨"Usage".toList, ⟨by decide, by decide⟩, by decide, rfl⟩, rfl, rfl,
        fillable_noRules⟩⟩

theorem template_requiringSchema : requiringSchema.Fillable ∧
    ∃ text d, template requiringSchema = .ok text ∧ parseDocument text "README.md" = .ok d ∧
      ∀ (around : Surroundings) (root : String),
        (evaluate around requiringSchema root d).journal.1 = .ok [] :=
  ⟨fillable_requiringSchema, template_satisfies fillable_requiringSchema "README.md"⟩

/-! ## Lists in a row -/

/-- A schema that asks for two lists in a section. -/
def twoListsSchema : Schema :=
  { elements :=
      [{ heading := .literal "# A", rules := { lists := [{ bounds := { min := 2 } }] } }] }

/-- The pieces of its template. -/
def twoLists : List TemplatePart :=
  [.comment "Generated from schema", .gap, .line "# A", .gap, .comment "List requirements:",
    .comment "Minimum 2 lists required", .gap, .placeholder (.list false 3),
    .placeholder (.list false 3)]

theorem template_twoLists : template twoListsSchema = .ok (textOf twoLists) := by
  have htext : Amount.text 2 = .ok "2" := (short_of_le (by decide : 2 ≤ 10)).text_eq
  have hcomments : ListRule.comments { bounds := { min := 2 } } =
      .ok [.comment "Minimum 2 lists required"] := by
    simp only [ListRule.comments, Bounds.comments, amountComment, htext]
    rfl
  have hlists : requirementParts "List requirements:" ListRule.comments ListRule.placeholders
      [{ bounds := { min := 2 } }] = .ok (twoLists.drop 4) := by
    rw [requirementParts, List.mapM_cons, hcomments]
    rfl
  have hrules : SectionRules.parts { lists := [{ bounds := { min := 2 } }] } =
      .ok (twoLists.drop 4) := by
    rw [SectionRules.parts, hlists]
    rfl
  rw [template, Schema.parts, twoListsSchema, Element.partsOfAll, Element.parts_eq,
    Element.ownParts, Element.contentParts, hrules]
  rfl

set_option maxRecDepth 20000 in
/-- The two lists are read as one. -/
theorem blocksOf_twoLists : blocksOf (textOf twoLists).toList =
    [.heading 1 2 3 3 ['A'], .list false 7 ([7, 8, 9, 11, 12, 13].map fun n =>
      [.paragraph n (n + 1) "TODO: Add list item".toList])] := by
  rw [toList_textOf]
  cbv

theorem gather_twoLists : gather (charLinesOf twoLists) (documentEvents (textOf twoLists).toList) =
    ({}, [⟨1, 2, 3, ['A'], { lists := [⟨false, 6, 8, 1⟩] }⟩]) := by
  have hevents : documentEvents (textOf twoLists).toList =
      .heading 1 2 3 (inlinesOf [] ['A']) :: .listStart false 7 ::
        itemEvents [] ([7, 8, 9, 11, 12, 13].map fun n =>
          [.paragraph n (n + 1) "TODO: Add list item".toList]) ++ [.listEnd] := by
    rw [documentEvents, blocksOf_twoLists]
    rfl
  have hhead : Gathering.step (charLinesOf twoLists) {} (.heading 1 2 3 (inlinesOf [] ['A'])) =
      Gathering.showing {} ⟨1, 2, 3, ['A'], {}⟩ [] {} := by
    rw [Gathering.step, plainText_inlinesOf ⟨by decide, by decide⟩]
    rfl
  have hstart : (Gathering.showing {} ⟨1, 2, 3, ['A'], {}⟩ [] {}).step (charLinesOf twoLists)
      (.listStart false 7) = Gathering.showing { openLists := [0] } ⟨1, 2, 3, ['A'], {}⟩ []
        { lists := [] ++ [⟨false, 0, 8, 1⟩] } := rfl
  have hitems : (itemEvents [] ([7, 8, 9, 11, 12, 13].map fun n =>
      [.paragraph n (n + 1) "TODO: Add list item".toList])).foldl
        (Gathering.step (charLinesOf twoLists))
        (Gathering.showing { openLists := [0] } ⟨1, 2, 3, ['A'], {}⟩ []
          { lists := [] ++ [⟨false, 0, 8, 1⟩] }) =
        Gathering.showing { openLists := [0] } ⟨1, 2, 3, ['A'], {}⟩ []
          { lists := [] ++ [⟨false, 0 + 6, 8, 1⟩] } :=
    @foldl_step_items (charLinesOf twoLists) { openLists := [0] } ⟨1, 2, 3, ['A'], {}⟩ [] {} rfl
      _ (by decide) false 8 1 [] rfl [7, 8, 9, 11, 12, 13] 0
  rw [gather, hevents, List.cons_append, List.foldl_cons, hhead, List.cons_append, List.foldl_cons,
    hstart, List.foldl_append, hitems]
  rfl

/-- What comes first in a row that is empty. -/
theorem exists_of_append_eq_nil {α β γ : Type} {x : Except Fault α} {y : Except Fault β}
    {f : α → List γ} {g : β → List γ}
    (h : (do let a ← x; let b ← y; return f a ++ g b) = .ok []) : ∃ a, x = .ok a ∧ f a = [] := by
  cases x with
  | error fault => cases h
  | ok a =>
    cases y with
    | error fault => cases h
    | ok b => exact ⟨a, rfl, (List.append_eq_nil_iff.1 (Except.ok.inj h)).1⟩

/-- A number of things on which there is no message is as large as required. -/
theorem le_of_countMessages_eq_nil {count : Nat} {b : Bounds} {few many : String → String}
    (h : countMessages count b few many = .ok []) : b.min.value ≤ count := by
  by_contra hless
  unfold countMessages at h
  dsimp only at h
  rw [if_pos (not_le.1 hless)] at h
  cases htext : b.min.text with
  | error fault =>
    rw [htext] at h
    cases h
  | ok least =>
    rw [htext] at h
    dsimp only [bind, Except.bind, pure, Except.pure] at h
    split_ifs at h with hmany
    · cases hmost : b.max.text <;> rw [hmost] at h <;> cases h
    · cases h

/-- Lists on which there is no violation are as many as required. -/
theorem le_of_checkLists_eq_nil {p : Placed} {r : ListRule} (h : checkLists p r = .ok []) :
    r.bounds.min.value ≤ (p.node.elements.lists.filter (·.isOf r.kind)).length := by
  obtain ⟨messages, hmessages, hnone⟩ := exists_of_append_eq_nil (g := List.flatten) h
  rw [atHeading, List.map_eq_nil_iff] at hnone
  exact le_of_countMessages_eq_nil (hnone ▸ hmessages)

set_option maxRecDepth 20000 in
theorem cutOn_twoLists : cutOn '\n' (textOf twoLists).toList = charLinesOf twoLists := by
  rw [toList_textOf]
  cbv

theorem boundNodes_twoLists (preamble : Body) :
    (bindingOf ⟨"README.md", textOf twoLists, none, preamble, nest (flatSections
      (charLinesOf twoLists) [⟨1, 2, 3, ['A'], { lists := [⟨false, 6, 8, 1⟩] }⟩])⟩
        twoListsSchema).boundNodes =
      [⟨⟨twoListsSchema.elements.headI, some (sectionOf (charLinesOf twoLists)
        ⟨1, 2, 3, ['A'], { lists := [⟨false, 6, 8, 1⟩] }⟩ []), 0, 1, 0, []⟩, []⟩] := rfl

/-- **Two lists that are required in a section are not there in the template**, as they are read as
one. -/
theorem twoLists_rejected : template twoListsSchema = .ok (textOf twoLists) ∧
    ∃ d, parseDocument (textOf twoLists) "README.md" = .ok d ∧
      ∀ (around : Surroundings) (root : String),
        (evaluate around twoListsSchema root d).journal.1 ≠ .ok [] := by
  obtain ⟨preamble, hparse⟩ := parseDocument_eq_ok (splitFrontMatter_of_comment cutOn_twoLists)
    cutOn_twoLists gather_twoLists "README.md"
  refine ⟨template_twoLists, _, hparse, ?_⟩
  intro around root hnone
  have hlocal : twoListsSchema.Local := ⟨rfl, rfl, rfl⟩
  obtain ⟨-, -, -, hmeets⟩ := (evaluate_local_eq_nil_iff hlocal around).1 hnone
  -- The only element is bound to a section with one list, which has the items of both.
  rw [boundNodes_twoLists] at hmeets
  have hlists := (List.forall_mem_singleton.1 hmeets).lists _ (List.mem_singleton_self _)
  have henough : 2 ≤ 1 := le_of_checkLists_eq_nil hlists
  omega

end Outline

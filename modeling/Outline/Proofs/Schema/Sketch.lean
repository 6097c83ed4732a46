import Outline.Document.Sketch
import Outline.Proofs.Document.Tree
import Outline.Schema.Load

/-!
# Sketches as schemas

The sketch of any sections, written down as a value, has the form of a schema
(`schemaFlaws_sketch`), and **it loads as the schema that asks for just their headings**
(`loadSchema_sketch`): each as the text that it is written as, without the blanks around it.

* `Section.element`, `elementsOf`: the elements that ask for the headings of sections.
-/

namespace Outline

mutual

/-- The element that asks for the heading of a section and for those below it. -/
def Section.element : Section → Element
  | ⟨heading, _, children⟩ =>
    { heading := .literal (strip heading.written), children := elementsOf children }

/-- The elements that ask for the headings of sections and for those below them. -/
def elementsOf : List Section → List Element
  | [] => []
  | s :: ss => s.element :: elementsOf ss

end

theorem Section.element_eq (s : Section) : s.element =
    { heading := .literal (strip s.heading.written), children := elementsOf s.children } := by
  cases s; rfl

/-- A written heading is not empty: there is a blank before its text. -/
theorem Heading.written_length_pos (h : Heading) : 0 < h.written.length := by
  rw [Heading.written, writtenHeading, ← String.length_toList, String.toList_ofList,
    List.length_append, List.length_cons]
  omega

/-! ## The value of a sketch -/

/-- The value of the sketch of a section has the heading, and the children if there are any. -/
theorem value_sketch (s : Section) : s.sketch.value =
    .map ((.str "heading", .str s.heading.written) ::
      if s.children = [] then [] else
        [(.str "children", .list (Sketch.values (sketchAll s.children)))]) := by
  obtain ⟨heading, body, children⟩ := s
  cases children <;> rfl

/-- All of it can be written. -/
theorem writableItems_sketch (sections : List Section) :
    Value.writableItems (Sketch.values (sketchAll sections)) = true := by
  induction sections using sections_induction with
  | nil => rfl
  | cons s rest ihs ih =>
    rw [sketchAll, Sketch.values, Value.writableItems, value_sketch, ih, Bool.and_true]
    split <;> simp [Value.writable, Value.writableEntries, ihs]

/-! ## The form of a sketch -/

namespace Flaws

@[simp] theorem none_and (a : Flaws) : Flaws.none.and a = a := by cases a <;> rfl

@[simp] theorem and_none (a : Flaws) : a.and Flaws.none = a := by
  cases a with
  | error f => rfl
  | ok flaws => exact congrArg Except.ok (List.append_nil flaws)

@[simp] theorem below_none (step : String) : Flaws.none.below step = Flaws.none := rfl

end Flaws

section

variable {element : Form}

/-- A text that is not empty is a specification of headings. -/
theorem flaws_heading {t : String} (h : 0 < t.length) :
    (Value.str t).flaws element headingForm = .none := by
  have hlength : ¬ t.length < 1 := by omega
  simp [Value.flaws, headingForm, Form.judge, judgeOptions, someText, checkText, checkLength,
    checkChoices, hlength]
  rfl

/-- Items without flaws are a list without flaws. -/
theorem flaws_elements {items : List Value}
    (h : ∀ judged ∈ itemFlaws element items, judged element = .none) :
    (Value.list items).flaws element .elements = .none := by
  have hbelow : ∀ (judgeds : List Judged) (place : Nat), (∀ j ∈ judgeds, j element = .none) →
      belowItems place (judgeds.map fun judged => judged element) = .none := by
    intro judgeds
    induction judgeds with
    | nil => exact fun _ _ => rfl
    | cons j js ih =>
      intro place hall
      obtain ⟨hj, hjs⟩ := List.forall_mem_cons.1 hall
      rw [List.map_cons, belowItems, ih _ hjs, hj]
      rfl
  rw [Value.flaws, Form.judge, hbelow _ 0 h]
  rfl

/-- The members of a record that are a heading and perhaps children. -/
theorem flaws_elementRecord {t : String} (ht : 0 < t.length) {more : List (Value × Value)}
    (hmore : more = [] ∨
      ∃ v : Value, more = [(.str "children", v)] ∧ v.flaws element .elements = .none) :
    (Value.map ((.str "heading", .str t) :: more)).flaws element elementRecord = .none := by
  rw [Value.flaws]
  rcases hmore with rfl | ⟨v, rfl, hv⟩
  · simp [entryFlaws, elementRecord, Form.judge, judgeMembers, isNamed, checkRequired, Flaws.all,
      checkNames, flaws_heading ht]
  · simp [entryFlaws, elementRecord, Form.judge, judgeMembers, isNamed, checkRequired, Flaws.all,
      checkNames, flaws_heading ht, hv]

/-- A mapping that can be written and has the members of an element is one. -/
theorem flaws_elementForm {entries : List (Value × Value)}
    (hwritable : Value.writableEntries entries = true)
    (h : (Value.map entries).flaws element elementRecord = .none) :
    (Value.map entries).flaws element elementForm = .none := by
  rw [Value.flaws] at h ⊢
  simp [elementForm, Form.judge, judgeOptions, someText, checkText, checkChoices, notOfType,
    Flaws.showing, Flaws.one, Value.writable, hwritable, h]
  rfl

end

/-- The sketches of sections are elements. -/
theorem flaws_sketch (sections : List Section) :
    ∀ judged ∈ itemFlaws elementForm (Sketch.values (sketchAll sections)),
      judged elementForm = .none := by
  induction sections using sections_induction with
  | nil => exact fun _ h => absurd h List.not_mem_nil
  | cons s rest ihs ih =>
    rw [sketchAll, Sketch.values, itemFlaws, value_sketch]
    refine List.forall_mem_cons.2 ⟨flaws_elementForm ?_ ?_, ih⟩
    · split <;> simp [Value.writableEntries, Value.writable, writableItems_sketch]
    · refine flaws_elementRecord s.heading.written_length_pos ?_
      split
      · exact Or.inl rfl
      · exact Or.inr ⟨_, rfl, flaws_elements ihs⟩

/-- **The sketch of sections has the form of a schema.** -/
theorem schemaFlaws_sketch (sections : List Section) :
    schemaFlaws (Sketch.valueOf (sketchAll sections)) = .none := by
  rw [schemaFlaws, Sketch.valueOf, Value.flaws]
  simp [entryFlaws, schemaForm, Form.judge, judgeMembers, isNamed, checkRequired, Flaws.all,
    checkNames, flaws_elements (flaws_sketch sections)]

/-! ## Loading -/

/-- An element with a heading and perhaps children asks for nothing else. -/
theorem ofValue_heading {t : String} {more : List (Value × Value)} (children : List Element)
    (hmore : (more = [] ∧ children = []) ∨
      ∃ v : Value, more = [(.str "children", v)] ∧ elementsOfValue v = .ok children) :
    Element.ofValue (.map ((.str "heading", .str t) :: more)) =
      .ok { heading := .literal (strip t), children := children } := by
  rcases hmore with ⟨rfl, rfl⟩ | ⟨v, rfl, hv⟩
  · simp [Element.ofValue, Value.get?, Value.hasKey, HeadingSpec.ofValue, readMember,
      childrenOfEntries, readSectionRules, isNamed, bind, Except.bind, pure, Except.pure]
  · simp [Element.ofValue, Value.get?, Value.hasKey, HeadingSpec.ofValue, readMember,
      childrenOfEntries, readSectionRules, isNamed, hv, bind, Except.bind, pure, Except.pure]

theorem elementsOfItems_sketch (sections : List Section) :
    elementsOfItems (Sketch.values (sketchAll sections)) = .ok (elementsOf sections) := by
  induction sections using sections_induction with
  | nil => rfl
  | cons s rest ihs ih =>
    rw [sketchAll, Sketch.values, elementsOfItems, value_sketch, elementsOf, Section.element_eq,
      ofValue_heading (elementsOf s.children), ih]
    · rfl
    · split
      · rename_i hnil
        exact Or.inl ⟨rfl, by rw [hnil]; rfl⟩
      · exact Or.inr ⟨_, rfl, ihs⟩

/-- **The sketch of sections loads as the schema that asks for their headings.** -/
theorem loadSchema_sketch (sections : List Section) (source : String) :
    loadSchema (Sketch.valueOf (sketchAll sections)) source =
      .ok { elements := elementsOf sections, source := source } := by
  have helements : elementsOfValue (.list (Sketch.values (sketchAll sections))) =
      .ok (elementsOf sections) := elementsOfItems_sketch sections
  have hschema : Schema.ofValue (Sketch.valueOf (sketchAll sections)) source =
      .ok { elements := elementsOf sections, source := source } := by
    simp [Schema.ofValue, Sketch.valueOf, readMapping, readMember, Value.get?, Value.hasKey,
      helements, bind, Except.bind, pure, Except.pure]
  have hflaws := schemaFlaws_sketch sections
  unfold loadSchema
  simp only [Sketch.valueOf] at hflaws hschema ⊢
  rw [hflaws]
  exact hschema

end Outline

import Outline.Proofs.Except
import Outline.Proofs.Schema.Amount
import Outline.Proofs.Schema.Form
import Outline.Schema.Load

/-!
# Reading what is of the right form

**A value of the form of schemas is read off but for its expressions** (`failsFor_schema`): no
member is missing, of the wrong kind or unknown, and only an expression that does not compile can
stop the reading.

* `HasExpression`: the expressions in an element or in a list of elements;
* `BadExpression`: the error of an expression that does not compile.
-/

namespace Outline

/-- **The expressions in an element**, or in a list of elements. -/
inductive HasExpression : Value → String → Prop
  | heading {entries : List (Value × Value)} {heading : Value} {text : String}
      (hheading : (Value.map entries).get? "heading" = some heading)
      (hexpr : heading.get? "expr" = some (.str text)) : HasExpression (.map entries) text
  | children {entries : List (Value × Value)} {children : Value} {text : String}
      (hchildren : (Value.map entries).get? "children" = some children)
      (h : HasExpression children text) : HasExpression (.map entries) text
  | item {items : List Value} {w : Value} {text : String} (hw : w ∈ items)
      (h : HasExpression w text) : HasExpression (.list items) text

/-- **The error of an expression** among some, one that does not compile. -/
def BadExpression (P : String → Prop) (e : LoadError) : Prop :=
  ∃ text, P text ∧ HeadingSpec.ofExpression text = .error e

/-- The members of a mapping are of their forms. -/
def FitsAll (members : List (String × Form)) (v : Value) : Prop :=
  ∀ m ∈ members, ∀ w, v.get? m.1 = some w → Fits m.2 w

variable {α : Type} {P : LoadError → Prop} {v : Value}

theorem BadExpression.mono {P Q : String → Prop} (hPQ : ∀ text, P text → Q text) (e : LoadError) :
    BadExpression P e → BadExpression Q e :=
  fun ⟨text, htext, hcompile⟩ => ⟨text, hPQ text htext, hcompile⟩

namespace FailsFor

/-! ## Readers

A reader that fails only for causes `P`, whatever `P` is, does not fail at all. -/

theorem truth (h : Fits .truth v) : FailsFor P (readTruth v) := by
  cases h with
  | truth b => exact .ok b

theorem text {least : Nat} {choices : List String} (h : Fits (.text least choices) v) :
    FailsFor P (readText v) := by
  cases h with
  | text => exact .ok _

/-- A word among the words for some things names one of them. -/
theorem word {all : List α} {word : α → String} (hne : all ≠ [])
    (h : Fits (.text 0 (all.map word)) v) :
    FailsFor P (readWord (fun s => all.find? (word · == s)) v) := by
  cases h with
  | text hlength hchoice =>
    have hmem := hchoice.resolve_left fun hnil => hne (List.map_eq_nil_iff.1 hnil)
    obtain ⟨a, ha, rfl⟩ := List.mem_map.1 hmem
    have hsome : (all.find? (word · == word a)).isSome :=
      List.find?_isSome.2 ⟨a, ha, BEq.rfl⟩
    obtain ⟨found, hfound⟩ := Option.isSome_iff_exists.1 hsome
    simp only [readWord, hfound]
    exact .ok found

theorem amount {least : Nat} {most : Option Nat} (hleast : least ≤ 1)
    (h : Fits (.whole least most) v) : FailsFor P (readAmount v) := by
  cases h with
  | whole hx hwhole hlow hhigh =>
    obtain ⟨a, ha⟩ := ofValue?_of_isWhole hleast hx hwhole hlow
    simp only [readAmount, ha]
    exact .ok a

theorem items {least : Nat} (h : Fits (.values least) v) : FailsFor P (readItems v) := by
  cases h with
  | values => exact .ok _

theorem list {item : Form} {read : Value → Reading α} (h : Fits (.list item) v)
    (hread : ∀ w, Fits item w → FailsFor P (read w)) : FailsFor P (readList read v) := by
  cases h with
  | list hitems => exact .mapM fun w hw => hread w (hitems w hw)

theorem member {members : List (String × Form)} {key : String} {form : Form}
    {read : Value → Reading α} {default : α} (h : FitsAll members v) (hm : (key, form) ∈ members)
    (hread : ∀ w, v.get? key = some w → Fits form w → FailsFor P (read w)) :
    FailsFor P (readMember v key read default) := by
  unfold readMember
  split
  · rename_i w hw
    exact hread w hw (h _ hm w hw)
  · exact .ok default

theorem names {members : List (String × Form)} {required : List String}
    (h : Fits (.record members required) v) :
    FailsFor P (readNames (members.map (·.1)) v) := by
  cases h with
  | record hmembers hrequired hnames =>
    rw [readNames, if_pos (List.all_eq_true.2 hnames)]
    exact .ok ()

theorem mapping {members : List (String × Form)} {required : List String}
    (h : Fits (.record members required) v) : FailsFor P (readMapping v) := by
  cases h with
  | record => exact .ok ()

end FailsFor

theorem Fits.exists_map {members : List (String × Form)} {required : List String}
    (h : Fits (.record members required) v) : ∃ entries, v = .map entries := by
  cases h with
  | record => exact ⟨_, rfl⟩

theorem Fits.members {members : List (String × Form)} {required : List String}
    (h : Fits (.record members required) v) : FitsAll members v := by
  cases h with
  | record hmembers => exact hmembers

/-- A required member of a mapping is there and of its form. -/
theorem Fits.required {members : List (String × Form)} {required : List String} {name : String}
    {form : Form} (h : Fits (.record members required) v) (hname : name ∈ required)
    (hm : (name, form) ∈ members) : ∃ w, v.get? name = some w ∧ Fits form w := by
  cases h with
  | record hmembers hrequired =>
    obtain ⟨w, hw⟩ := hrequired name hname
    exact ⟨w, hw, hmembers _ hm w hw⟩

/-- A mapping has no members but those of its form. -/
theorem Fits.name_mem {members : List (String × Form)} {required : List String} {name : String}
    {w : Value} (h : Fits (.record members required) v) (hw : v.get? name = some w) :
    name ∈ members.map (·.1) := by
  cases h with
  | record hmembers hrequired hnames =>
    rw [get?_eq_find?] at hw
    obtain ⟨⟨key, w'⟩, he, -⟩ := Option.map_eq_some_iff.1 hw
    have hnamed := hnames _ (List.mem_of_find?_eq_some he)
    have hkey := List.find?_some he
    cases key with
    | str s =>
      obtain rfl := eq_of_beq hkey
      exact List.contains_iff_mem.1 hnamed
    | _ => cases hkey

theorem FitsAll.append {some others : List (String × Form)} (h : FitsAll (some ++ others) v) :
    FitsAll some v ∧ FitsAll others v :=
  ⟨fun m hm => h m (List.mem_append_left _ hm), fun m hm => h m (List.mem_append_right _ hm)⟩

theorem FitsAll.tail {m : String × Form} {members : List (String × Form)}
    (h : FitsAll (m :: members) v) : FitsAll members v :=
  fun m' hm' => h m' (List.mem_cons_of_mem m hm')

namespace FailsFor

theorem anyText (h : Fits anyText v) : FailsFor P (readText v) := .text h

theorem anyTexts (h : Fits (.list Outline.anyText) v) : FailsFor P (readList readText v) :=
  .list h fun _ => .anyText

theorem count (h : Fits countForm v) : FailsFor P (readAmount v) := .amount (by decide) h

theorem severity (h : Fits (.text 0 (Severity.all.map Severity.text)) v) :
    FailsFor P (readWord Severity.ofText? v) := .word (by simp [Severity.all]) h

theorem fieldType (h : Fits (.text 0 (FieldType.all.map FieldType.text)) v) :
    FailsFor P (readWord FieldType.ofText? v) := .word (by simp [FieldType.all]) h

theorem fieldFormat (h : Fits (.text 0 (FieldFormat.all.map FieldFormat.text)) v) :
    FailsFor P (readWord FieldFormat.ofText? v) := .word (by simp [FieldFormat.all]) h

/-! ## Requirements on sections -/

theorem readBounds (h : FitsAll boundsMembers v) : FailsFor P (readBounds v) := by
  unfold Outline.readBounds
  refine .bind (.member h (by simp [boundsMembers]) fun _ _ => .count) fun _ => ?_
  exact .bind (.member h (by simp [boundsMembers]) fun _ _ => .count) fun _ => .ok _

theorem readCount (h : Fits (.record boundsMembers []) v) : FailsFor P (readCount v) := by
  unfold Outline.readCount
  exact .bind (.names h) fun _ => .readBounds h.members

theorem readTextPattern (h : Fits textPatternForm v) : FailsFor P (readTextPattern v) := by
  cases h with
  | oneOf hform h =>
    simp only [List.mem_cons, List.not_mem_nil, or_false] at hform
    rcases hform with rfl | rfl
    · cases h with
      | text => exact .ok _
    · cases h with
      | record hmembers hrequired =>
        obtain ⟨p, hp⟩ := hrequired "pattern" (.head _)
        simp only [Outline.readTextPattern, hp]
        exact .bind (.text (hmembers _ (.head _) p hp)) fun _ => .ok _

theorem readCodeBlockRule (h : Fits (.record (("lang", Outline.anyText) :: boundsMembers) []) v) :
    FailsFor P (readCodeBlockRule v) := by
  unfold Outline.readCodeBlockRule
  refine .bind (.names h) fun _ => .bind (.readBounds h.members.tail) fun _ => ?_
  exact .bind (.member h.members (.head _) fun _ _ => .anyText) fun _ => .ok _

theorem readImageRule (h : Fits (.record (boundsMembers ++
    [("require_alt", .truth), ("formats", .list Outline.anyText)]) []) v) :
    FailsFor P (readImageRule v) := by
  unfold Outline.readImageRule
  obtain ⟨hbounds, hothers⟩ := h.members.append
  refine .bind (.names h) fun _ => .bind (.readBounds hbounds) fun _ => ?_
  refine .bind (.member hothers (by simp) fun _ _ => .truth) fun _ => ?_
  exact .bind (.member hothers (by simp) fun _ _ => .anyTexts) fun _ => .ok _

theorem readTableRule (h : Fits (.record (boundsMembers ++
    [("min_columns", countForm), ("required_headers", .list Outline.anyText)]) []) v) :
    FailsFor P (readTableRule v) := by
  unfold Outline.readTableRule
  obtain ⟨hbounds, hothers⟩ := h.members.append
  refine .bind (.names h) fun _ => .bind (.readBounds hbounds) fun _ => ?_
  refine .bind (.member hothers (by simp) fun _ _ => .count) fun _ => ?_
  exact .bind (.member hothers (by simp) fun _ _ => .anyTexts) fun _ => .ok _

theorem readListRule (h : Fits (.record (boundsMembers ++
    [("type", .text 0 ([ListKind.ordered, .unordered].map ListKind.text)),
      ("min_items", countForm)]) []) v) :
    FailsFor P (readListRule v) := by
  unfold Outline.readListRule
  obtain ⟨hbounds, hothers⟩ := h.members.append
  refine .bind (.names h) fun _ => .bind (.readBounds hbounds) fun _ => ?_
  refine .bind (.member hothers (.head _) fun _ _ h => .map (.word (by simp) h)) fun _ => ?_
  exact .bind (.member hothers (by simp) fun _ _ => .count) fun _ => .ok _

theorem readSectionRules (h : Fits elementRecord v) : FailsFor P (readSectionRules v) := by
  unfold Outline.readSectionRules
  refine .bind (.member h.members (by simp) fun _ _ h => .list h fun _ => .readTextPattern)
    fun _ => ?_
  refine .bind (.member h.members (by simp) fun _ _ h => .list h fun _ => .readTextPattern)
    fun _ => ?_
  refine .bind (.member h.members (by simp) fun _ _ h => .list h fun _ => .readCodeBlockRule)
    fun _ => ?_
  refine .bind (.member h.members (by simp) fun _ _ h => .list h fun _ => .readImageRule)
    fun _ => ?_
  refine .bind (.member h.members (by simp) fun _ _ h => .list h fun _ => .readTableRule)
    fun _ => ?_
  refine .bind (.member h.members (by simp) fun _ _ h => .list h fun _ => .readListRule)
    fun _ => ?_
  exact .bind (.member h.members (by simp) fun _ _ h => .map (.readCount h)) fun _ => .ok _

end FailsFor

/-! ## Expected headings -/

theorem failsFor_heading (h : Fits headingForm v) :
    FailsFor (BadExpression fun text => v.get? "expr" = some (.str text))
      (HeadingSpec.ofValue v) := by
  cases h with
  | oneOf hform h =>
    simp only [List.mem_cons, List.not_mem_nil, or_false] at hform
    rcases hform with rfl | rfl | rfl
    · cases h with
      | text => exact .ok _
    · obtain ⟨p, hp, htext⟩ := h.required (.head _) (.head _)
      have hexpr : v.get? "expr" = none := by
        cases hexpr : v.get? "expr" with
        | none => rfl
        | some w => exact absurd (h.name_mem hexpr) (by decide)
      cases h with
      | record =>
        simp only [HeadingSpec.ofValue, hexpr, hp]
        exact .bind (.text htext) fun _ => .ok _
    · obtain ⟨e, he, htext⟩ := h.required (.head _) (.head _)
      cases h with
      | record =>
        simp only [HeadingSpec.ofValue, he]
        refine .bind_of_ok (.text htext) fun text hread => ?_
        cases htext with
        | text =>
          cases hread
          exact fun _ herror => ⟨text, rfl, herror⟩

theorem childrenOfEntries_eq (entries : List (Value × Value)) :
    childrenOfEntries entries = readMember (.map entries) "children" elementsOfValue [] := by
  induction entries with
  | nil => rfl
  | cons e es ih =>
    obtain ⟨key, w⟩ := e
    have hkey := isNamed_singleton "children" (key, w)
    unfold childrenOfEntries readMember
    rw [ih, get?_eq_find?, Value.entries, List.find?_cons, ← hkey]
    cases isNamed ["children"] key <;> rfl

theorem elementsOfItems_eq_mapM (items : List Value) :
    elementsOfItems items = items.mapM Element.ofValue := by
  induction items with
  | nil => rfl
  | cons w ws ih =>
    rw [List.mapM_cons, elementsOfItems, ih]

/-- An element fails to be read for its own expression, or for those of the elements below it. -/
theorem failsFor_elementRecord (h : Fits elementRecord v)
    (hchildren : ∀ c, v.get? "children" = some c → Fits .elements c →
      FailsFor (BadExpression (HasExpression c)) (elementsOfValue c)) :
    FailsFor (BadExpression (HasExpression v)) (Element.ofValue v) := by
  obtain ⟨heading, hheading, hfits⟩ := h.required (.head _) (.head _)
  have hmembers := h.members
  have hrules := @FailsFor.readSectionRules (BadExpression (HasExpression v)) v h
  obtain ⟨entries, rfl⟩ := h.exists_map
  unfold Element.ofValue
  simp only [hheading, childrenOfEntries_eq]
  refine .bind ((failsFor_heading hfits).mono (.mono fun _ => .heading hheading)) fun _ => ?_
  refine .bind (.member hmembers (by simp) fun _ _ => .truth) fun _ => ?_
  refine .bind (.member hmembers (by simp) fun _ _ h => .map (.readCount h)) fun _ => ?_
  refine .bind (.member hmembers (by simp) fun _ _ => .severity) fun _ => ?_
  refine .bind (.member hmembers (by simp) fun _ _ => .truth) fun _ => ?_
  refine .bind (.member hmembers (by simp) fun c hc h =>
    (hchildren c hc h).mono (.mono fun _ => .children hc)) fun _ => ?_
  refine .bind hrules fun _ => ?_
  exact .bind (.member hmembers (by simp) fun _ _ => .anyText) fun _ => .ok _

/-- **An element fails to be read only for its expressions**, and so does a list of elements. -/
theorem failsFor_elements (v : Value) :
    (Fits elementForm v → FailsFor (BadExpression (HasExpression v)) (Element.ofValue v)) ∧
      (Fits .elements v → FailsFor (BadExpression (HasExpression v)) (elementsOfValue v)) := by
  induction v using Value.parts_induction with
  | step v ih =>
    constructor
    · intro h
      cases h with
      | oneOf hform h =>
        simp only [List.mem_cons, List.not_mem_nil, or_false] at hform
        rcases hform with rfl | rfl
        · cases h with
          | text => exact .ok _
        · exact failsFor_elementRecord h fun c hc => (ih c (mem_parts_of_get? hc)).2
    · intro h
      cases h with
      | elements hitems =>
        rename_i items
        simp only [elementsOfValue, elementsOfItems_eq_mapM]
        refine .mapM fun w hw => ?_
        have hfails := (ih w (List.mem_append_left _ hw)).1 (hitems w hw)
        exact hfails.mono (BadExpression.mono fun _ => .item hw)

/-! ## Requirements on documents -/

namespace FailsFor

theorem readLinkRules (h : Fits linkRulesForm v) : FailsFor P (readLinkRules v) := by
  unfold Outline.readLinkRules
  have hmembers := h.members
  refine .bind (.names h) fun _ => ?_
  refine .bind (.member hmembers (by simp) fun _ _ => .truth) fun _ => ?_
  refine .bind (.member hmembers (by simp) fun _ _ => .truth) fun _ => ?_
  refine .bind (.member hmembers (by simp) fun _ _ => .truth) fun _ => ?_
  refine .bind (.member hmembers (by simp) fun _ _ (h : Fits (.whole 1 none) _) =>
    .amount (by decide) h) fun _ => ?_
  refine .bind (.member hmembers (by simp) fun _ _ => .anyTexts) fun _ => ?_
  exact .bind (.member hmembers (by simp) fun _ _ => .anyTexts) fun _ => .ok _

theorem readHeadingRules (h : Fits headingRulesForm v) : FailsFor P (readHeadingRules v) := by
  unfold Outline.readHeadingRules
  have hmembers := h.members
  refine .bind (.names h) fun _ => ?_
  refine .bind (.member hmembers (by simp) fun _ _ => .truth) fun _ => ?_
  refine .bind (.member hmembers (by simp) fun _ _ => .truth) fun _ => ?_
  refine .bind (.member hmembers (by simp) fun _ _ => .truth) fun _ => ?_
  exact .bind (.member hmembers (by simp) fun _ _ (h : Fits (.whole 1 (some 6)) _) =>
    .amount (by decide) h) fun _ => .ok _

theorem readFieldRule (h : Fits fieldForm v) : FailsFor P (readFieldRule v) := by
  unfold Outline.readFieldRule
  have hmembers := h.members
  obtain ⟨name, hname, hfits⟩ := h.required (.head _) (.head _)
  simp only [hname]
  refine .bind (.names h) fun _ => .bind (.text hfits) fun _ => ?_
  refine .bind (.member hmembers (by simp) fun _ _ => .truth) fun _ => ?_
  refine .bind (.member hmembers (by simp) fun _ _ h => .map (.fieldType h)) fun _ => ?_
  refine .bind (.member hmembers (by simp) fun _ _ h => .map (.fieldFormat h)) fun _ => ?_
  refine .bind (.member hmembers (by simp) fun _ _ (h : Fits (.values 1) _) => .items h)
    fun _ => ?_
  exact .bind (.member hmembers (by simp) fun _ _ => .anyText) fun _ => .ok _

theorem readFrontMatterRules (h : Fits frontMatterForm v) :
    FailsFor P (readFrontMatterRules v) := by
  unfold Outline.readFrontMatterRules
  have hmembers := h.members
  refine .bind (.mapping h) fun _ => ?_
  refine .bind (.member hmembers (by simp) fun _ _ => .truth) fun _ => ?_
  exact .bind (.member hmembers (by simp) fun _ _ h => .list h fun _ => .readFieldRule)
    fun _ => .ok _

end FailsFor

/-- The expressions in a schema. -/
def SchemaExpression (v : Value) (text : String) : Prop :=
  ∃ elements, v.get? "structure" = some elements ∧ HasExpression elements text

/-- **A value of the form of schemas fails to be read only for its expressions.** -/
theorem failsFor_schema (h : Fits schemaForm v) (source : String) :
    FailsFor (BadExpression (SchemaExpression v)) (Schema.ofValue v source) := by
  unfold Schema.ofValue
  have hmembers := h.members
  refine .bind (.mapping h) fun _ => ?_
  refine .bind (.member hmembers (.head _) fun w hw h => ?_) fun _ => ?_
  · exact ((failsFor_elements w).2 h).mono (BadExpression.mono fun _ hexpr => ⟨w, hw, hexpr⟩)
  refine .bind (.member hmembers (by simp) fun _ _ h => .map (.readLinkRules h)) fun _ => ?_
  refine .bind (.member hmembers (by simp) fun _ _ h => .map (.readHeadingRules h)) fun _ => ?_
  exact .bind (.member hmembers (by simp) fun _ _ h => .map (.readFrontMatterRules h))
    fun _ => .ok _

end Outline

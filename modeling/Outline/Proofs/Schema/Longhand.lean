import Outline.Proofs.Schema.Load
import Outline.Proofs.Schema.Sketch

/-!
# Elements that are spelled out

In a list of elements a text is short for the mapping with this text as its heading. **Spelling all
of them out, at every depth, changes neither whether a value has flaws nor what is read off it**
(`loadSchema_longhand`).

* `Value.longhand`, `Value.longhandList`: an element, and a list of elements, spelled out;
* `Value.longhandSchema`: a schema with its structure spelled out;
* `Value.withMember`: a mapping with one member changed.
-/

namespace Outline

/-! ## One member of a mapping -/

/-- A mapping with the member of a name changed. -/
def Value.withMember (name : String) (f : Value → Value) : Value → Value
  | .map entries =>
    .map (entries.map fun e => (e.1, if isNamed [name] e.1 then f e.2 else e.2))
  | v => v

variable {name key : String} {f : Value → Value} {v : Value}

theorem isNamed_of_hasKey {e : Value × Value} (h : Value.hasKey key e = true) :
    isNamed [name] e.1 = decide (key = name) := by
  obtain ⟨k, w⟩ := e
  cases k with
  | str s =>
    obtain rfl := eq_of_beq h
    simp [isNamed]
  | _ => cases h

/-- The members of a mapping with one of them changed. -/
theorem get?_withMember : (v.withMember name f).get? key =
    (v.get? key).map fun w => if key = name then f w else w := by
  cases v with
  | map entries =>
    rw [get?_eq_find?, get?_eq_find?]
    simp only [Value.withMember, Value.entries, List.find?_map, Option.map_map]
    have hkeys : (Value.hasKey key ∘ fun e : Value × Value =>
        (e.1, if isNamed [name] e.1 then f e.2 else e.2)) = Value.hasKey key := by
      funext e
      simp only [Function.comp_apply, ← isNamed_singleton]
    rw [hkeys]
    cases he : entries.find? (Value.hasKey key) with
    | none => rfl
    | some e => simp [isNamed_of_hasKey (List.find?_some he)]
  | _ => rfl

section

variable {α : Type} {read : Value → Reading α} {default : α}

theorem readMember_withMember_of_ne (hne : key ≠ name) :
    readMember (v.withMember name f) key read default = readMember v key read default := by
  simp [readMember, get?_withMember, hne]

theorem readMember_withMember_self (hf : ∀ w, v.get? name = some w → read (f w) = read w) :
    readMember (v.withMember name f) name read default = readMember v name read default := by
  unfold readMember
  rw [get?_withMember]
  cases hw : v.get? name with
  | none => rfl
  | some w => simpa using hf w hw

end

/-! ## Flaws of mappings and lists -/

theorem judgeMembers_eq_none_iff {members : List (String × Form)} :
    judgeMembers elementForm v v.judgedItems v.judgedEntries members = .none ↔
      ∀ m ∈ members, ∀ w, v.get? m.1 = some w → w.flaws elementForm m.2 = .none := by
  induction members with
  | nil => simp [judgeMembers]
  | cons m ms ih =>
    obtain ⟨name, form⟩ := m
    have hfind : v.judgedEntries.find? (fun e => isNamed [name] e.1) =
        (v.entries.find? (Value.hasKey name)).map fun e => (e.1, e.2.flaws elementForm) := by
      rw [List.find?_map]
      simp only [Function.comp_def, isNamed_singleton]
    rw [judgeMembers, Flaws.and_eq_none, ih, List.forall_mem_cons]
    refine and_congr_left fun _ => ?_
    dsimp only
    rw [hfind, get?_eq_find?]
    cases v.entries.find? (Value.hasKey name) with
    | none => simp
    | some e => simp [Flaws.below_eq_none]

/-- **A mapping has no flaws exactly if its members have none**, the required ones are there, and
there are no others. -/
theorem flaws_record_eq_none_iff {entries : List (Value × Value)} {members : List (String × Form)}
    {required : List String} :
    (Value.map entries).flaws elementForm (.record members required) = .none ↔
      ((∀ m ∈ members, ∀ w, (Value.map entries).get? m.1 = some w →
          w.flaws elementForm m.2 = .none) ∧
        checkRequired (entries.map (·.1)) required = .none) ∧
      checkNames (entries.map (·.1)) (members.map (·.1)) = .none := by
  have hkeys : (Value.map entries).judgedEntries.map (·.1) = entries.map (·.1) := List.map_map
  rw [flaws_eq_judge]
  unfold Form.judge
  dsimp only
  rw [Flaws.and_eq_none, Flaws.and_eq_none, judgeMembers_eq_none_iff, hkeys]

/-- **A list of elements has no flaws exactly if its items have none.** -/
theorem flaws_elements_eq_none_iff : v.flaws elementForm .elements = .none ↔
    ∃ items, v = .list items ∧ ∀ w ∈ items, w.flaws elementForm elementForm = .none := by
  constructor
  · intro h
    rw [flaws_eq_judge] at h
    unfold Form.judge at h
    obtain ⟨hlist, hbelow⟩ := Flaws.and_eq_none.1 h
    obtain ⟨items, rfl⟩ := list_of_checkList hlist
    exact ⟨items, rfl, fun w hw => belowItems_eq_none hbelow _
      (List.mem_map_of_mem (List.mem_map_of_mem hw))⟩
  · rintro ⟨items, rfl, hitems⟩
    refine flaws_elements fun judged hjudged => ?_
    rw [itemFlaws_eq_map] at hjudged
    obtain ⟨w, hw, rfl⟩ := List.mem_map.1 hjudged
    exact hitems w hw

section

variable {element form : Form} {items : List Judged} {judged : List (Value × Judged)}
  {options : List Form}

theorem judgeOptions_of_oneOf (h : Form.judge element v items judged (.oneOf options) = .none) :
    judgeOptions element v items judged options = .ok true := by
  unfold Form.judge at h
  obtain ⟨found, hfound, h⟩ := bind_eq_ok.1 h
  cases found with
  | true => exact hfound
  | false => exact absurd h Flaws.showing_ne_none

/-- A value of one of some forms has been found to be of the first, or it has been told what is wrong
with it under the first and it is of one of the others. -/
theorem judge_of_judgeOptions
    (h : judgeOptions element v items judged (form :: options) = .ok true) :
    Form.judge element v items judged form = .none ∨
      (∃ flaws, Form.judge element v items judged form = .ok flaws) ∧
        judgeOptions element v items judged options = .ok true := by
  unfold judgeOptions at h
  obtain ⟨flaws, hflaws, h⟩ := bind_eq_ok.1 h
  cases flaws with
  | nil => exact .inl hflaws
  | cons flaw flaws => exact .inr ⟨⟨_, hflaws⟩, h⟩

end

/-- **A mapping is an element exactly if it can be written and has the members of one.** To tell that
it is no text, the check writes it. -/
theorem flaws_elementForm_eq_none_iff {entries : List (Value × Value)} :
    (Value.map entries).flaws elementForm elementForm = .none ↔
      (Value.map entries).writable = true ∧
        (Value.map entries).flaws elementForm elementRecord = .none := by
  constructor
  · intro h
    have htext (items : List Judged) (judged : List (Value × Judged)) :
        Form.judge elementForm (.map entries) items judged someText =
          Flaws.showing (.map entries) " is not of type 'string'" := by
      simp [Form.judge, someText, checkText, checkChoices, notOfType]
    rw [flaws_eq_judge] at h ⊢
    rcases judge_of_judgeOptions (judgeOptions_of_oneOf h) with h | ⟨⟨flaws, hflaws⟩, h⟩
    · rw [htext] at h
      exact absurd h Flaws.showing_ne_none
    · rw [htext, Flaws.showing] at hflaws
      split at hflaws
      · rename_i hwritable
        refine ⟨hwritable, (judge_of_judgeOptions h).resolve_right ?_⟩
        rintro ⟨-, hnone⟩
        cases hnone
      · cases hflaws
  · rintro ⟨hwritable, h⟩
    exact flaws_elementForm hwritable h

/-! ## Elements -/

mutual

/-- An element that is spelled out, with all elements below it. -/
def Value.longhand : Value → Value
  | .str s => .map [(.str "heading", .str s)]
  | .map entries => .map (longhandChildren entries)
  | v => v

/-- A list of elements that are spelled out. -/
def Value.longhandList : Value → Value
  | .list items => .list (longhandItems items)
  | v => v

/-- Elements in a row that are spelled out. -/
def longhandItems : List Value → List Value
  | [] => []
  | v :: vs => v.longhand :: longhandItems vs

/-- The entries of an element, with the list at the key `children` spelled out. -/
def longhandChildren : List (Value × Value) → List (Value × Value)
  | [] => []
  | (key, w) :: es =>
    (key, if isNamed ["children"] key then w.longhandList else w) :: longhandChildren es

end

theorem longhandItems_eq_map (items : List Value) :
    longhandItems items = items.map Value.longhand := by
  induction items with
  | nil => rfl
  | cons v vs ih => rw [longhandItems, ih]; rfl

theorem longhand_map (entries : List (Value × Value)) :
    (Value.map entries).longhand = (Value.map entries).withMember "children" Value.longhandList := by
  have hchildren : longhandChildren entries =
      entries.map fun e => (e.1, if isNamed ["children"] e.1 then e.2.longhandList else e.2) := by
    induction entries with
    | nil => rfl
    | cons e es ih => rw [longhandChildren, ih]; rfl
  rw [Value.longhand, hchildren]
  rfl

/-- **What is spelled out can be written if the short form can.** -/
theorem writable_longhand (v : Value) :
    v.longhand.writable = v.writable ∧ v.longhandList.writable = v.writable := by
  induction v using Value.parts_induction with
  | step v ih =>
    cases v with
    | list items =>
      refine ⟨rfl, ?_⟩
      have hitems : ∀ w ∈ items, w.longhand.writable = w.writable := fun w hw =>
        (ih w (List.mem_append_left _ hw)).1
      rw [Value.longhandList, longhandItems_eq_map]
      unfold Value.writable
      clear ih
      induction items with
      | nil => rfl
      | cons w ws ihs =>
        obtain ⟨hw, hws⟩ := List.forall_mem_cons.1 hitems
        rw [List.map_cons, Value.writableItems, Value.writableItems, hw, ihs hws]
    | map entries =>
      refine ⟨?_, rfl⟩
      have hentries : ∀ e ∈ entries, e.2.longhandList.writable = e.2.writable := fun e he =>
        (ih e.2 (List.mem_append_right _ (List.mem_map_of_mem he))).2
      rw [longhand_map]
      unfold Value.withMember Value.writable
      clear ih
      induction entries with
      | nil => rfl
      | cons e es ihs =>
        obtain ⟨he, hes⟩ := List.forall_mem_cons.1 hentries
        rw [List.map_cons, Value.writableEntries, Value.writableEntries, ihs hes]
        split
        · rw [he]
        · rfl
    | _ => exact ⟨rfl, rfl⟩

/-- Changing a member for one that has no flaws makes no flaws. -/
theorem flaws_withMember {members : List (String × Form)} {required : List String}
    (h : v.flaws elementForm (.record members required) = .none)
    (hf : ∀ form, (name, form) ∈ members → ∀ w, v.get? name = some w →
      w.flaws elementForm form = .none → (f w).flaws elementForm form = .none) :
    (v.withMember name f).flaws elementForm (.record members required) = .none := by
  cases v with
  | map entries =>
    obtain ⟨⟨hmembers, hrequired⟩, hnames⟩ := flaws_record_eq_none_iff.1 h
    have hkeys : (entries.map fun e => (e.1, if isNamed [name] e.1 then f e.2 else e.2)).map
        (·.1) = entries.map (·.1) := List.map_map
    rw [Value.withMember, flaws_record_eq_none_iff, hkeys]
    refine ⟨⟨fun m hm w hw => ?_, hrequired⟩, hnames⟩
    have hget : ((Value.map entries).withMember name f).get? m.1 =
        ((Value.map entries).get? m.1).map fun w => if m.1 = name then f w else w :=
      get?_withMember
    rw [Value.withMember, hw] at hget
    obtain ⟨w', hw', rfl⟩ := Option.map_eq_some_iff.1 hget.symm
    have hnone := hmembers m hm w' hw'
    split
    · rename_i heq
      obtain ⟨key, form⟩ := m
      obtain rfl : key = name := heq
      exact hf form hm w' hw' hnone
    · exact hnone
  | _ => exact h

/-- **Spelling out makes no flaws**, in an element or in a list of elements. -/
theorem flaws_longhand (v : Value) :
    (v.flaws elementForm elementForm = .none →
      v.longhand.flaws elementForm elementForm = .none) ∧
    (v.flaws elementForm .elements = .none →
      v.longhandList.flaws elementForm .elements = .none) := by
  induction v using Value.parts_induction with
  | step v ih =>
    constructor
    · intro h
      cases v with
      | str s =>
        have hlength : 0 < s.length := by
          cases fits_of_flaws _ _ h with
          | oneOf hform h =>
            simp only [List.mem_cons, List.not_mem_nil, or_false] at hform
            rcases hform with rfl | rfl
            · cases h with
              | text hlength => exact hlength
            · cases h
        exact flaws_elementForm rfl (flaws_elementRecord hlength (.inl rfl))
      | map entries =>
        obtain ⟨hwritable, hrecord⟩ := flaws_elementForm_eq_none_iff.1 h
        -- the check shows an element that is no text, so it stops at what cannot be written
        have hlong := (writable_longhand (.map entries)).1.trans hwritable
        rw [Value.longhand] at hlong ⊢
        refine flaws_elementForm_eq_none_iff.2 ⟨hlong, ?_⟩
        rw [← Value.longhand, longhand_map]
        refine flaws_withMember hrecord fun form hform w hw => ?_
        obtain rfl : form = .elements := by simpa using hform
        exact (ih w (mem_parts_of_get? hw)).2
      | _ => exact h
    · intro h
      obtain ⟨items, rfl, hitems⟩ := flaws_elements_eq_none_iff.1 h
      rw [Value.longhandList, longhandItems_eq_map]
      refine flaws_elements_eq_none_iff.2 ⟨_, rfl, fun w' hw' => ?_⟩
      obtain ⟨w, hw, rfl⟩ := List.mem_map.1 hw'
      exact (ih w (List.mem_append_left _ hw)).1 (hitems w hw)

/-- **What is spelled out is read as the short form is**, an element or a list of elements. -/
theorem ofValue_longhand (v : Value) :
    Element.ofValue v.longhand = Element.ofValue v ∧
      elementsOfValue v.longhandList = elementsOfValue v := by
  induction v using Value.parts_induction with
  | step v ih =>
    cases v with
    | str s => exact ⟨ofValue_heading [] (.inl ⟨rfl, rfl⟩), rfl⟩
    | list items =>
      refine ⟨rfl, ?_⟩
      have hitems : ∀ w ∈ items, Element.ofValue w.longhand = Element.ofValue w := fun w hw =>
        (ih w (List.mem_append_left _ hw)).1
      rw [Value.longhandList, elementsOfValue, elementsOfValue]
      clear ih
      induction items with
      | nil => rfl
      | cons w ws ihs =>
        obtain ⟨hw, hws⟩ := List.forall_mem_cons.1 hitems
        rw [longhandItems, elementsOfItems, elementsOfItems, hw, ihs hws]
    | map entries =>
      refine ⟨?_, rfl⟩
      have hchildren : readMember ((Value.map entries).withMember "children" Value.longhandList)
          "children" elementsOfValue [] = readMember (.map entries) "children" elementsOfValue [] :=
        readMember_withMember_self fun w hw => (ih w (mem_parts_of_get? hw)).2
      have hother {α : Type} (key : String) (read : Value → Reading α) (default : α)
          (hne : key ≠ "children") :
          readMember ((Value.map entries).withMember "children" Value.longhandList) key read
            default = readMember (.map entries) key read default :=
        readMember_withMember_of_ne hne
      have hheading : ((Value.map entries).withMember "children" Value.longhandList).get?
          "heading" = (Value.map entries).get? "heading" := by
        rw [get?_withMember]
        simp
      rw [longhand_map]
      simp only [Value.withMember] at hchildren hother hheading ⊢
      unfold Element.ofValue
      simp [childrenOfEntries_eq, hchildren, hother, hheading, readSectionRules]
    | _ => exact ⟨rfl, rfl⟩

/-! ## Schemas -/

/-- A schema with its structure spelled out. -/
def Value.longhandSchema (v : Value) : Value := v.withMember "structure" Value.longhandList

/-- Spelling out the structure of a schema makes no flaws. -/
theorem schemaFlaws_longhand (h : schemaFlaws v = .none) : schemaFlaws v.longhandSchema = .none := by
  refine flaws_withMember h fun form hform w _ => ?_
  obtain rfl : form = .elements := by simpa using hform
  exact (flaws_longhand w).2

/-- A schema is read as it is with its structure spelled out. -/
theorem schema_ofValue_longhand (v : Value) (source : String) :
    Schema.ofValue v.longhandSchema source = Schema.ofValue v source := by
  have hmapping : readMapping v.longhandSchema = readMapping v := by cases v <;> rfl
  have hstructure : readMember (v.withMember "structure" Value.longhandList) "structure"
      elementsOfValue [] = readMember v "structure" elementsOfValue [] :=
    readMember_withMember_self fun w _ => (ofValue_longhand w).2
  unfold Schema.ofValue
  rw [hmapping]
  unfold Value.longhandSchema
  simp [hstructure, readMember_withMember_of_ne]

/-- **A schema that loads, loads the same with all elements spelled out.** -/
theorem loadSchema_longhand {schema : Schema} {source : String}
    (h : loadSchema v source = .ok schema) : loadSchema v.longhandSchema source = .ok schema := by
  by_cases hv : v = .null
  · rw [hv] at h ⊢
    exact h
  · have hv' : v.longhandSchema ≠ .null := by
      cases v <;> simp_all [Value.longhandSchema, Value.withMember]
    rw [loadSchema_of_ne_null hv] at h
    rw [loadSchema_of_ne_null hv']
    split at h
    · cases h
    · rename_i hnone
      rw [schemaFlaws_longhand hnone]
      exact (schema_ofValue_longhand v source).trans h
    · cases h

end Outline

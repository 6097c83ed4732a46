import Outline.Proofs.Schema.Guard
import Outline.Proofs.Structure.Rows

/-!
# Amounts of schemas that load

A mapping that stands for an expected heading is tried as a text first, which shows it. Hence **the
amounts of the elements of a schema that loads can be written** (`writable_of_loadSchema`).

* `Amount.Writable`, `Bounds.Writable`, `SectionRules.Writable`, `Element.Writable`: amounts that
  can be written;
* `writable_of_elementForm`: what stands for an element without flaws can be written.
-/

namespace Outline

/-! ## Amounts -/

/-- An amount that is not too long to be written. -/
def Amount.Writable (a : Amount) : Prop := a.toValue.writable = true

/-- Bounds that can be written. -/
structure Bounds.Writable (b : Bounds) : Prop where
  min : b.min.Writable
  max : b.max.Writable

/-- Requirements on a section whose amounts can be written. -/
structure SectionRules.Writable (r : SectionRules) : Prop where
  codeBlocks : ∀ c ∈ r.codeBlocks, c.bounds.Writable
  images : ∀ i ∈ r.images, i.bounds.Writable
  tables : ∀ t ∈ r.tables, t.bounds.Writable ∧ t.minColumns.Writable
  lists : ∀ l ∈ r.lists, l.bounds.Writable ∧ l.minItems.Writable
  wordCount : ∀ b ∈ r.wordCount, b.Writable

/-- An expected heading whose amounts can be written. -/
structure Element.Writable (e : Element) : Prop where
  count : ∀ b ∈ e.count, b.Writable
  rules : e.rules.Writable

theorem Amount.Writable.text {a : Amount} (h : a.Writable) : ∃ text, a.text = .ok text :=
  ⟨_, if_pos h⟩

theorem Amount.writable_zero : (0 : Amount).Writable := by
  -- for any exponent, so that the power is not computed
  have hpow : ∀ k, decide ((0 : Int).natAbs < Nat.pow 10 k) = true := fun k =>
    decide_eq_true (Nat.pow_pos (by decide))
  exact hpow maxDigits

/-- The amount that a value gives can be written if the value can. -/
theorem Amount.writable_of_ofValue? {v : Value} {a : Amount} (hv : v.writable = true)
    (h : Amount.ofValue? v = some a) : a.Writable := by
  cases v with
  | int n =>
    simp only [Amount.ofValue?] at h
    split at h
    · rename_i hn
      rw [← Option.some.inj h]
      simp only [Amount.Writable, Amount.toValue, Int.toNat_of_nonneg hn]
      exact hv
    · cases h
  | float f =>
    simp only [Amount.ofValue?] at h
    split at h
    · split at h
      · rw [← Option.some.inj h]
        simp only [Amount.Writable, Amount.toValue, Value.writable]
      · cases h
    · cases h
  | _ => cases h

/-! ## Reading -/

section

variable {α : Type} {Q : α → Prop} {v : Value}

theorem gives_readMember (hv : v.writable = true) {read : Value → Reading α} {default : α}
    {key : String} (hread : ∀ w, w.writable = true → Gives Q (read w)) (hdefault : Q default) :
    Gives Q (readMember v key read default) := by
  unfold readMember
  split
  · rename_i w hw
    exact hread w (Value.writable_of_mem_parts hv w (mem_parts_of_get? hw))
  · exact .ok hdefault

theorem gives_readList {read : Value → Reading α}
    (hread : ∀ w, w.writable = true → Gives Q (read w)) (w : Value) (hw : w.writable = true) :
    Gives (fun as => ∀ a ∈ as, Q a) (readList read w) := by
  cases w with
  | list items =>
    exact Gives.mapM fun w' hw' =>
      hread w' (Value.writable_of_mem_parts hw w' (List.mem_append_left _ hw'))
  | _ => exact fun _ h => by cases h

theorem gives_readAmount (w : Value) (hw : w.writable = true) :
    Gives Amount.Writable (readAmount w) := by
  unfold readAmount
  split
  · rename_i a ha
    exact .ok (Amount.writable_of_ofValue? hw ha)
  · exact fun _ h => by cases h

theorem gives_readBounds (hv : v.writable = true) : Gives Bounds.Writable (readBounds v) :=
  (gives_readMember hv gives_readAmount Amount.writable_zero).bind fun _ hmin =>
    (gives_readMember hv gives_readAmount Amount.writable_zero).bind fun _ hmax => .ok ⟨hmin, hmax⟩

theorem gives_readCount (w : Value) (hw : w.writable = true) :
    Gives Bounds.Writable (readCount w) :=
  .andThen fun _ => gives_readBounds hw

theorem gives_readCodeBlockRule (w : Value) (hw : w.writable = true) :
    Gives (fun c => c.bounds.Writable) (readCodeBlockRule w) :=
  .andThen fun _ => (gives_readBounds hw).bind fun _ hbounds => .andThen fun _ => .ok hbounds

theorem gives_readImageRule (w : Value) (hw : w.writable = true) :
    Gives (fun i => i.bounds.Writable) (readImageRule w) :=
  .andThen fun _ => (gives_readBounds hw).bind fun _ hbounds =>
    .andThen fun _ => .andThen fun _ => .ok hbounds

theorem gives_readTableRule (w : Value) (hw : w.writable = true) :
    Gives (fun t => t.bounds.Writable ∧ t.minColumns.Writable) (readTableRule w) :=
  .andThen fun _ => (gives_readBounds hw).bind fun _ hbounds =>
    (gives_readMember hw gives_readAmount Amount.writable_zero).bind fun _ hcolumns =>
      .andThen fun _ => .ok ⟨hbounds, hcolumns⟩

theorem gives_readListRule (w : Value) (hw : w.writable = true) :
    Gives (fun l => l.bounds.Writable ∧ l.minItems.Writable) (readListRule w) :=
  .andThen fun _ => (gives_readBounds hw).bind fun _ hbounds => .andThen fun _ =>
    (gives_readMember hw gives_readAmount Amount.writable_zero).bind fun _ hitems =>
      .ok ⟨hbounds, hitems⟩

/-- A count at a key of a mapping, if there is one. -/
theorem gives_readCountMember (hv : v.writable = true) (key : String) :
    Gives (fun count => ∀ b ∈ count, b.Writable)
      (readMember v key (fun w => some <$> readCount w) none) := by
  refine gives_readMember hv (fun w hw => ?_) (fun b hb => by cases hb)
  exact (gives_readCount w hw).bind (f := fun b => pure (some b)) fun b hb =>
    .ok fun b' hb' => by cases hb'; exact hb

theorem gives_readSectionRules (hv : v.writable = true) :
    Gives SectionRules.Writable (readSectionRules v) := by
  have hnone : ∀ {β : Type} {R : β → Prop}, ∀ b ∈ ([] : List β), R b := fun _ h => by cases h
  refine .andThen fun _ => .andThen fun _ => ?_
  refine (gives_readMember hv (gives_readList gives_readCodeBlockRule) hnone).bind fun _ hcode => ?_
  refine (gives_readMember hv (gives_readList gives_readImageRule) hnone).bind fun _ himages => ?_
  refine (gives_readMember hv (gives_readList gives_readTableRule) hnone).bind fun _ htables => ?_
  refine (gives_readMember hv (gives_readList gives_readListRule) hnone).bind fun _ hlists => ?_
  exact (gives_readCountMember hv "word_count").bind fun _ hlength =>
    .ok ⟨hcode, himages, htables, hlists, hlength⟩

end

/-! ## Elements -/

/-- What the requirements of an element that is read are read off. -/
theorem rules_of_ofValue {entries : List (Value × Value)} {e : Element}
    (h : Element.ofValue (.map entries) = .ok e) :
    readMember (.map entries) "count" (fun w => some <$> readCount w) none = .ok e.count ∧
      readSectionRules (.map entries) = .ok e.rules := by
  unfold Element.ofValue at h
  dsimp only at h
  split at h
  · obtain ⟨_, -, h⟩ := bind_eq_ok.1 h
    obtain ⟨_, -, h⟩ := bind_eq_ok.1 h
    obtain ⟨_, hcount, h⟩ := bind_eq_ok.1 h
    obtain ⟨_, -, h⟩ := bind_eq_ok.1 h
    obtain ⟨_, -, h⟩ := bind_eq_ok.1 h
    obtain ⟨_, -, h⟩ := bind_eq_ok.1 h
    obtain ⟨_, hrules, h⟩ := bind_eq_ok.1 h
    obtain ⟨_, -, h⟩ := bind_eq_ok.1 h
    cases h
    exact ⟨hcount, hrules⟩
  · cases h

theorem writable_of_ofValue {v : Value} (hv : v.writable = true) {e : Element}
    (h : Element.ofValue v = .ok e) : e.Writable := by
  cases v with
  | str s =>
    cases h
    refine ⟨fun b hb => ?_, ⟨fun c hc => ?_, fun i hi => ?_, fun t ht => ?_, fun l hl => ?_,
      fun b hb => ?_⟩⟩ <;> contradiction
  | map entries =>
    obtain ⟨hcount, hrules⟩ := rules_of_ofValue h
    exact ⟨gives_readCountMember hv "count" _ hcount, gives_readSectionRules hv _ hrules⟩
  | _ => exact nomatch h

/-- **What is read off a value that can be written has amounts that can be written**, in an element
and in those below it. -/
theorem eachWritable_of_writable (v : Value) : v.writable = true →
    (∀ e, Element.ofValue v = .ok e → EachElement Element.Writable e.children) ∧
      ∀ es, elementsOfValue v = .ok es → EachElement Element.Writable es := by
  induction v using Value.parts_induction with
  | step v ih =>
    intro hv
    have hparts : ∀ w ∈ v.parts, w.writable = true := Value.writable_of_mem_parts hv
    constructor
    · intro e h
      cases v with
      | str s =>
        cases h
        exact .nil
      | map entries =>
        obtain ⟨-, hchildren⟩ := ofValue_map_eq_ok h
        unfold readMember at hchildren
        split at hchildren
        · rename_i w hw
          have hmem := mem_parts_of_get? hw
          exact (ih w hmem (hparts w hmem)).2 _ hchildren
        · rw [← Except.ok.inj hchildren]
          exact .nil
      | _ => cases h
    · intro es h
      obtain ⟨items, rfl, hitems⟩ := elementsOfValue_eq_ok h
      have hall : ∀ w ∈ items, ∀ e, Element.ofValue w = .ok e →
          e.Writable ∧ EachElement Element.Writable e.children := by
        intro w hw e he
        have hmem : w ∈ (Value.list items).parts := List.mem_append_left _ hw
        exact ⟨writable_of_ofValue (hparts w hmem) he, (ih w hmem (hparts w hmem)).1 e he⟩
      clear h ih hparts hv
      induction hitems with
      | nil => exact .nil
      | cons he _ ihs =>
        obtain ⟨hw, hws⟩ := List.forall_mem_cons.1 hall
        obtain ⟨hhere, hbelow⟩ := hw _ he
        exact .cons hhere hbelow (ihs hws)

/-! ## Schemas -/

/-- What stands for an element and has no flaws can be written, for it was tried as a text. -/
theorem writable_of_elementForm {v : Value} (h : v.flaws elementForm elementForm = .none) :
    v.writable = true := by
  rw [flaws_eq_judge] at h
  change Form.judge elementForm v v.judgedItems v.judgedEntries
    (.oneOf [someText, elementRecord]) = .none at h
  by_contra hv
  have htext : Form.judge elementForm v v.judgedItems v.judgedEntries someText =
      .error (.tooManyDigits none) := by
    have hshown : notOfType v "string" = .error (.tooManyDigits none) := if_neg hv
    unfold someText Form.judge checkText
    cases v with
    | str s => exact absurd rfl hv
    | _ =>
      dsimp only
      rw [hshown]
      rfl
  unfold Form.judge judgeOptions at h
  rw [htext] at h
  cases h

/-- The members of a mapping of a form without flaws have none. -/
theorem flaws_of_record {v : Value} {members : List (String × Form)} {required : List String}
    (h : v.flaws elementForm (.record members required) = .none) :
    ∀ m ∈ members, ∀ w, v.get? m.1 = some w → w.flaws elementForm m.2 = .none := by
  rw [flaws_eq_judge] at h
  unfold Form.judge at h
  split at h
  · exact flaws_of_judgeMembers (Flaws.and_eq_none.1 (Flaws.and_eq_none.1 h).1).1
  · exact absurd h Flaws.showing_ne_none

theorem writable_list {items : List Value} (h : ∀ w ∈ items, w.writable = true) :
    (Value.list items).writable = true := by
  change Value.writableItems items = true
  induction items with
  | nil => rfl
  | cons w ws ih =>
    obtain ⟨hw, hws⟩ := List.forall_mem_cons.1 h
    rw [Value.writableItems, hw, ih hws]
    rfl

/-- **The amounts of the elements of a schema that loads can be written.** -/
theorem writable_of_loadSchema {v : Value} {source : String} {schema : Schema}
    (h : loadSchema v source = .ok schema) : EachElement Element.Writable schema.elements := by
  -- no value at all is read as an empty mapping
  obtain ⟨v, hne, h⟩ : ∃ v, v ≠ Value.null ∧ loadSchema v source = .ok schema := by
    by_cases hnull : v = .null
    · subst hnull
      exact ⟨.map [], nofun, h⟩
    · exact ⟨v, hnull, h⟩
  obtain ⟨hflaws, hread⟩ := loadSchema_eq_ok hne h
  have helements := elements_of_schema_ofValue hread
  unfold readMember at helements
  split at helements
  · rename_i w hw
    have hstructure : w.flaws elementForm .elements = .none :=
      flaws_of_record hflaws ("structure", .elements) List.mem_cons_self w hw
    rw [flaws_eq_judge] at hstructure
    unfold Form.judge at hstructure
    obtain ⟨items, rfl, hitems⟩ := flaws_of_belowItems hstructure
    have hwritable := writable_list fun w hw => writable_of_elementForm (hitems w hw)
    exact (eachWritable_of_writable _ hwritable).2 _ helements
  · rw [← Except.ok.inj helements]
    exact .nil

end Outline

import Outline.Schema.Format

/-!
# Values of a form

`Fits form v` says what the forms mean. **A value without flaws is of the form** that it was checked
against (`fits_of_flaws`).

* `Value.parts`, `Value.parts_induction`: the parts of values, and induction by them;
* `flaws_eq_judge`: a value is judged by the judgements of its parts.
-/

namespace Outline

/-- **A value of a form**; elements have their own. -/
inductive Fits : Form → Value → Prop
  | text {least : Nat} {choices : List String} {s : String} (hlength : least ≤ s.length)
      (hchoice : choices = [] ∨ s ∈ choices) : Fits (.text least choices) (.str s)
  | truth (b : Bool) : Fits .truth (.bool b)
  | whole {least : Nat} {most : Option Nat} {v : Value} {x : Int ⊕ Float}
      (hx : formNumber? v = some x) (hwhole : isWhole x = true) (hlow : isBelow x least = false)
      (hhigh : ∀ m, most = some m → isAbove x m = false) : Fits (.whole least most) v
  | values {least : Nat} {items : List Value} (hlength : least ≤ items.length) :
      Fits (.values least) (.list items)
  | list {item : Form} {items : List Value} (hitems : ∀ w ∈ items, Fits item w) :
      Fits (.list item) (.list items)
  | record {members : List (String × Form)} {required : List String}
      {entries : List (Value × Value)}
      (hmembers : ∀ m ∈ members, ∀ w, (Value.map entries).get? m.1 = some w → Fits m.2 w)
      (hrequired : ∀ name ∈ required, ∃ w, (Value.map entries).get? name = some w)
      (hnames : ∀ e ∈ entries, isNamed (members.map (·.1)) e.1 = true) :
      Fits (.record members required) (.map entries)
  | oneOf {options : List Form} {form : Form} {v : Value} (hform : form ∈ options)
      (h : Fits form v) : Fits (.oneOf options) v
  | elements {items : List Value} (hitems : ∀ w ∈ items, Fits elementForm w) :
      Fits .elements (.list items)

/-! ## Flaws -/

namespace Flaws

variable {a b : Flaws} {v : Value} {words step : String}

theorem and_eq_none : a.and b = none ↔ a = none ∧ b = none := by
  constructor
  · intro h
    cases a with
    | error f => cases h
    | ok x =>
      cases b with
      | error f => cases h
      | ok y =>
        obtain ⟨rfl, rfl⟩ := List.append_eq_nil_iff.1 (Except.ok.inj h)
        exact ⟨rfl, rfl⟩
  · rintro ⟨rfl, rfl⟩
    rfl

theorem below_eq_none : a.below step = none ↔ a = none := by
  constructor
  · intro h
    cases a with
    | error f => cases h
    | ok x => rw [List.map_eq_nil_iff.1 (Except.ok.inj h)]; rfl
  · rintro rfl
    rfl

theorem all_eq_none {checks : List Flaws} : all checks = none ↔ ∀ a ∈ checks, a = none := by
  induction checks with
  | nil => simp [all]
  | cons a as ih => rw [all, and_eq_none, ih, List.forall_mem_cons]

theorem showing_ne_none : showing v words ≠ none := by
  unfold showing
  split <;> intro h <;> cases h

end Flaws

variable {v : Value}

theorem flaws_ite_eq_none {c : Prop} [Decidable c] {words : String} :
    (if c then Flaws.showing v words else .none) = .none ↔ ¬ c := by
  split <;> simp_all [Flaws.showing_ne_none]

theorem fits_of_checkText {least : Nat} {choices : List String}
    (h : checkText v least choices = .none) : Fits (.text least choices) v := by
  unfold checkText at h
  split at h
  rename_i kind length hparts
  obtain ⟨hkind, hchoice⟩ := Flaws.and_eq_none.1 h
  rw [Flaws.and_eq_none] at hkind
  split at hparts
  · rename_i s
    cases hparts
    have hlength : ¬ s.length < least := flaws_ite_eq_none.1 hkind.2
    refine .text (by omega) ?_
    unfold checkChoices at hchoice
    dsimp only at hchoice
    split at hchoice
    · rename_i hchosen
      simpa using hchosen
    · exact absurd hchoice Flaws.showing_ne_none
  · cases hparts
    exact absurd hkind.1 Flaws.showing_ne_none

theorem fits_of_checkTruth (h : checkTruth v = .none) : Fits .truth v := by
  unfold checkTruth at h
  split at h
  · exact .truth _
  · exact absurd h Flaws.showing_ne_none

theorem fits_of_checkWhole {least : Nat} {most : Option Nat} (h : checkWhole v least most = .none) :
    Fits (.whole least most) v := by
  unfold checkWhole at h
  split at h
  · exact absurd h Flaws.showing_ne_none
  · rename_i x hx
    simp only [Flaws.and_eq_none] at h
    obtain ⟨⟨hkind, hlow⟩, hhigh⟩ := h
    refine .whole hx ?_ ?_ ?_
    · split at hkind
      · assumption
      · exact absurd hkind Flaws.showing_ne_none
    · exact Bool.eq_false_iff.2 (flaws_ite_eq_none.1 hlow)
    · rintro m rfl
      exact Bool.eq_false_iff.2 (flaws_ite_eq_none.1 hhigh)

theorem fits_of_checkValues {least : Nat} (h : checkValues v least = .none) :
    Fits (.values least) v := by
  unfold checkValues at h
  split at h
  · rename_i items
    have hlength : ¬ items.length < least := flaws_ite_eq_none.1 h
    exact .values (by omega)
  · exact absurd h Flaws.showing_ne_none

theorem list_of_checkList (h : checkList v = .none) : ∃ items, v = .list items := by
  unfold checkList at h
  split at h
  · exact ⟨_, rfl⟩
  · exact absurd h Flaws.showing_ne_none

theorem named_of_checkNames {keys : List Value} {names : List String}
    (h : checkNames keys names = .none) : ∀ k ∈ keys, isNamed names k = true := by
  unfold checkNames at h
  dsimp only at h
  split at h
  · rename_i hextras
    simpa using hextras
  · split at h <;> cases h

theorem any_of_checkRequired {keys : List Value} {required : List String}
    (h : checkRequired keys required = .none) :
    ∀ name ∈ required, keys.any (isNamed [name]) = true := by
  intro name hname
  have hhere := Flaws.all_eq_none.1 h _ (List.mem_map_of_mem hname)
  split at hhere
  · assumption
  · cases hhere

/-! ## Parts -/

/-- The items of a list. -/
def Value.items : Value → List Value
  | .list items => items
  | _ => []

/-- The entries of a mapping. -/
def Value.entries : Value → List (Value × Value)
  | .map entries => entries
  | _ => []

/-- The items of a list and the values of a mapping. -/
def Value.parts (v : Value) : List Value := v.items ++ v.entries.map (·.2)

theorem Value.sizeOf_lt_of_mem_parts {w : Value} (hw : w ∈ v.parts) : sizeOf w < sizeOf v := by
  rcases List.mem_append.1 hw with hw | hw
  · cases v with
    | list items =>
      have hlt : sizeOf w < sizeOf items := List.sizeOf_lt_of_mem hw
      simp only [Value.list.sizeOf_spec]
      omega
    | _ => cases hw
  · obtain ⟨e, he, rfl⟩ := List.mem_map.1 hw
    cases v with
    | map entries =>
      have hlt : sizeOf e < sizeOf entries := List.sizeOf_lt_of_mem he
      have hsize : sizeOf e = 1 + sizeOf e.1 + sizeOf e.2 := by cases e; rfl
      simp only [Value.map.sizeOf_spec]
      omega
    | _ => cases he

/-- Induction on values by their parts. -/
theorem Value.parts_induction {motive : Value → Prop}
    (step : ∀ v : Value, (∀ w ∈ v.parts, motive w) → motive v) (v : Value) : motive v :=
  step v fun w _ => parts_induction step w
termination_by sizeOf v
decreasing_by exact sizeOf_lt_of_mem_parts ‹_›

theorem itemFlaws_eq_map (items : List Value) :
    itemFlaws elementForm items = items.map (Value.flaws elementForm) := by
  induction items with
  | nil => rfl
  | cons w ws ih => rw [itemFlaws, ih]; rfl

theorem entryFlaws_eq_map (entries : List (Value × Value)) :
    entryFlaws elementForm entries = entries.map fun e => (e.1, e.2.flaws elementForm) := by
  induction entries with
  | nil => rfl
  | cons e es ih => rw [entryFlaws, ih]; rfl

/-- The items of a list, ready to be judged. -/
abbrev Value.judgedItems (v : Value) : List Judged := v.items.map (Value.flaws elementForm)

/-- The entries of a mapping, ready to be judged. -/
abbrev Value.judgedEntries (v : Value) : List (Value × Judged) :=
  v.entries.map fun e => (e.1, e.2.flaws elementForm)

/-- A value is judged by the judgements of its parts. -/
theorem flaws_eq_judge (v : Value) (form : Form) :
    v.flaws elementForm form = Form.judge elementForm v v.judgedItems v.judgedEntries form := by
  cases v with
  | list items => rw [Value.flaws, itemFlaws_eq_map]; rfl
  | map entries => rw [Value.flaws, entryFlaws_eq_map]; rfl
  | _ => rfl

/-! ## What has no flaws is of the form -/

/-- Whether all flaws of a value under the forms are found. -/
def WellJudged (v : Value) : Prop := ∀ form, v.flaws elementForm form = .none → Fits form v

theorem belowItems_eq_none {checks : List Flaws} :
    ∀ {place : Nat}, belowItems place checks = .none → ∀ a ∈ checks, a = .none := by
  induction checks with
  | nil => exact fun _ _ h => absurd h List.not_mem_nil
  | cons a as ih =>
    intro place h
    obtain ⟨ha, has⟩ := Flaws.and_eq_none.1 h
    exact List.forall_mem_cons.2 ⟨Flaws.below_eq_none.1 ha, ih has⟩

theorem isNamed_singleton (name : String) (e : Value × Value) :
    isNamed [name] e.1 = Value.hasKey name e := by
  obtain ⟨key, w⟩ := e
  cases key with
  | str s => exact (List.contains_cons).trans (Bool.or_false _)
  | _ => rfl

theorem get?_eq_find? (v : Value) (name : String) :
    v.get? name = (v.entries.find? (Value.hasKey name)).map (·.2) := by
  cases v <;> rfl

/-- The members of a mapping are parts of it. -/
theorem mem_parts_of_get? {w : Value} {name : String} (h : v.get? name = some w) : w ∈ v.parts := by
  rw [get?_eq_find?] at h
  obtain ⟨e, he, rfl⟩ := Option.map_eq_some_iff.1 h
  exact List.mem_append_right _ (List.mem_map_of_mem (List.mem_of_find?_eq_some he))

theorem exists_get?_of_any {entries : List (Value × Value)} {name : String}
    (h : (entries.map (·.1)).any (isNamed [name]) = true) :
    ∃ w, (Value.map entries).get? name = some w := by
  obtain ⟨k, hk, hnamed⟩ := List.any_eq_true.1 h
  obtain ⟨e, he, rfl⟩ := List.mem_map.1 hk
  rw [isNamed_singleton] at hnamed
  obtain ⟨found, hfound⟩ := Option.isSome_iff_exists.1 (List.find?_isSome.2 ⟨e, he, hnamed⟩)
  exact ⟨found.2, by rw [get?_eq_find?, Value.entries, hfound]; rfl⟩

/-- The items of a list without flaws have none. -/
theorem flaws_of_belowItems {item : Form}
    (h : (checkList v).and (belowItems 0 (v.judgedItems.map fun judged => judged item)) = .none) :
    ∃ items, v = .list items ∧ ∀ w ∈ items, w.flaws elementForm item = .none := by
  obtain ⟨hlist, hbelow⟩ := Flaws.and_eq_none.1 h
  obtain ⟨items, rfl⟩ := list_of_checkList hlist
  exact ⟨items, rfl, fun w hw =>
    belowItems_eq_none hbelow _ (List.mem_map_of_mem (List.mem_map_of_mem hw))⟩

/-- The members of a mapping without flaws have none. -/
theorem flaws_of_judgeMembers {members : List (String × Form)}
    (h : judgeMembers elementForm v v.judgedItems v.judgedEntries members = .none) :
    ∀ m ∈ members, ∀ w, v.get? m.1 = some w → w.flaws elementForm m.2 = .none := by
  induction members with
  | nil => exact fun m hm => absurd hm List.not_mem_nil
  | cons m ms ih =>
    obtain ⟨name, form⟩ := m
    obtain ⟨hhere, hrest⟩ := Flaws.and_eq_none.1 h
    refine List.forall_mem_cons.2 ⟨fun w hw => ?_, ih hrest⟩
    rw [get?_eq_find?] at hw
    obtain ⟨e, he, rfl⟩ := Option.map_eq_some_iff.1 hw
    have hfind : v.judgedEntries.find?
        (fun e => isNamed [name] e.1) = some (e.1, e.2.flaws elementForm) := by
      rw [List.find?_map]
      simp only [Function.comp_def, isNamed_singleton]
      rw [show (fun e : Value × Value => Value.hasKey name e) = Value.hasKey name from rfl, he]
      rfl
    rw [hfind] at hhere
    exact Flaws.below_eq_none.1 hhere

section

variable (hparts : ∀ w ∈ v.parts, WellJudged w)

include hparts

/-- A list of items without flaws is a list of items of the form. -/
theorem fits_of_belowItems {item : Form}
    (h : (checkList v).and (belowItems 0 (v.judgedItems.map fun judged => judged item)) = .none) :
    ∃ items, v = .list items ∧ ∀ w ∈ items, Fits item w := by
  obtain ⟨items, rfl, hitems⟩ := flaws_of_belowItems h
  exact ⟨items, rfl, fun w hw => hparts w (List.mem_append_left _ hw) item (hitems w hw)⟩

/-- The members of a mapping without flaws are of their forms. -/
theorem fits_of_judgeMembers {members : List (String × Form)}
    (h : judgeMembers elementForm v v.judgedItems v.judgedEntries members = .none) :
    ∀ m ∈ members, ∀ w, v.get? m.1 = some w → Fits m.2 w := fun m hm w hw =>
  hparts w (mem_parts_of_get? hw) m.2 (flaws_of_judgeMembers h m hm w hw)

end

mutual

/-- **A judgement without flaws shows that the value is of the form.** -/
theorem fits_of_judge (hparts : ∀ w ∈ v.parts, WellJudged w) : ∀ form,
    Form.judge elementForm v v.judgedItems v.judgedEntries form = .none → Fits form v
  | .text least choices, h => by
    unfold Form.judge at h
    exact fits_of_checkText h
  | .truth, h => by
    unfold Form.judge at h
    exact fits_of_checkTruth h
  | .whole least most, h => by
    unfold Form.judge at h
    exact fits_of_checkWhole h
  | .values least, h => by
    unfold Form.judge at h
    exact fits_of_checkValues h
  | .list item, h => by
    unfold Form.judge at h
    obtain ⟨items, rfl, hitems⟩ := fits_of_belowItems hparts h
    exact .list hitems
  | .elements, h => by
    unfold Form.judge at h
    obtain ⟨items, rfl, hitems⟩ := fits_of_belowItems hparts h
    exact .elements hitems
  | .record members required, h => by
    unfold Form.judge at h
    split at h
    · rename_i entries
      simp only [Flaws.and_eq_none] at h
      obtain ⟨⟨hmembers, hrequired⟩, hnames⟩ := h
      have hkeys : ((Value.map entries).entries.map fun e => (e.1, e.2.flaws elementForm)).map
          (·.1) = entries.map (·.1) := List.map_map
      rw [hkeys] at hrequired hnames
      refine .record (fits_of_judgeMembers hparts hmembers) (fun name hname => ?_) fun e he => ?_
      · exact exists_get?_of_any (any_of_checkRequired hrequired name hname)
      · exact named_of_checkNames hnames _ (List.mem_map_of_mem he)
    · exact absurd h Flaws.showing_ne_none
  | .oneOf options, h => by
    unfold Form.judge at h
    cases hoptions : judgeOptions elementForm v v.judgedItems v.judgedEntries options with
    | error f => 
      rw [hoptions] at h
      cases h
    | ok found =>
      cases found with
      | true => 
        obtain ⟨form, hform, hfits⟩ := fits_of_judgeOptions hparts options hoptions
        exact .oneOf hform hfits
      | false => 
        rw [hoptions] at h
        exact absurd h Flaws.showing_ne_none

theorem fits_of_judgeOptions (hparts : ∀ w ∈ v.parts, WellJudged w) : ∀ options,
    judgeOptions elementForm v v.judgedItems v.judgedEntries options = .ok true →
      ∃ form ∈ options, Fits form v
  | [], h => by cases h
  | form :: rest, h => by
    unfold judgeOptions at h
    cases hjudge : Form.judge elementForm v v.judgedItems v.judgedEntries form with
    | error f =>
      rw [hjudge] at h
      cases h
    | ok flaws =>
      rw [hjudge] at h
      cases flaws with
      | nil => exact ⟨form, List.mem_cons_self, fits_of_judge hparts form hjudge⟩
      | cons flaw flaws =>
        obtain ⟨option, hoption, hfits⟩ := fits_of_judgeOptions hparts rest h
        exact ⟨option, List.mem_cons_of_mem _ hoption, hfits⟩

end

/-- **A value without flaws is of the form** that it was checked against. -/
theorem fits_of_flaws (v : Value) : WellJudged v := by
  induction v using Value.parts_induction with
  | step v ih =>
    intro form h
    rw [flaws_eq_judge] at h
    exact fits_of_judge ih form h

end Outline

import Outline.Proofs.Except
import Outline.Proofs.Schema.Form

/-!
# What stops a check

A flaw shows the value that it is about. Hence **a check stops for a value that cannot be written**,
and for nothing else (`unwritable_of_flaws`).

* `Unshown`: the result of a check that stops for nothing else.
-/

namespace Outline

variable {v : Value}

/-- The result of a check that stops only if the value cannot be written. -/
def Unshown {α : Type} (v : Value) (r : Except Fault α) : Prop :=
  FailsFor (fun fault => fault = .tooManyDigits none ∧ v.writable = false) r

namespace Unshown

variable {a b : Flaws} {w : Value}

theorem none : Unshown v Flaws.none := .ok _

theorem of_part {α : Type} {r : Except Fault α} (h : Unshown w r)
    (hw : v.writable = true → w.writable = true) : Unshown v r := by
  refine h.mono fun fault => And.imp_right fun hunwritable => Bool.eq_false_iff.2 fun hv => ?_
  rw [hw hv] at hunwritable
  cases hunwritable

theorem and (ha : Unshown v a) (hb : Unshown v b) : Unshown v (a.and b) :=
  ha.bind fun _ => hb.bind fun _ => .ok _

theorem below {step : String} (ha : Unshown v a) : Unshown v (a.below step) := ha.map

theorem showing (words : String) : Unshown v (Flaws.showing v words) := by
  intro fault hfault
  unfold Flaws.showing at hfault
  split at hfault
  · cases hfault
  · rename_i hunwritable
    cases hfault
    exact ⟨rfl, Bool.eq_false_iff.2 hunwritable⟩

theorem ite {c : Prop} [Decidable c] (ha : Unshown v a) (hb : Unshown v b) :
    Unshown v (if c then a else b) := by
  split
  · exact ha
  · exact hb

theorem all {checks : List Flaws} (h : ∀ a ∈ checks, Unshown v a) : Unshown v (Flaws.all checks) := by
  induction checks with
  | nil => exact .none
  | cons a as ih =>
    obtain ⟨ha, has⟩ := List.forall_mem_cons.1 h
    exact ha.and (ih has)

theorem belowItems {checks : List Flaws} (h : ∀ a ∈ checks, Unshown v a) :
    ∀ place, Unshown v (belowItems place checks) := by
  induction checks with
  | nil => exact fun _ => .none
  | cons a as ih =>
    intro place
    obtain ⟨ha, has⟩ := List.forall_mem_cons.1 h
    exact ha.below.and (ih has (place + 1))

theorem checkLength (length least : Nat) : Unshown v (checkLength v length least) :=
  .ite (.showing _) .none

theorem checkText (least : Nat) (choices : List String) : Unshown v (checkText v least choices) := by
  have hchoices : Unshown v (checkChoices v choices) := .ite .none (.showing _)
  unfold Outline.checkText
  split
  rename_i kind length hparts
  refine .and ?_ hchoices
  split at hparts <;> cases hparts
  · exact .and .none (.checkLength _ _)
  · exact .and (.showing _) .none

theorem checkTruth : Unshown v (checkTruth v) := by
  unfold Outline.checkTruth
  split
  · exact .none
  · exact .showing _

theorem checkWhole (least : Nat) (most : Option Nat) : Unshown v (checkWhole v least most) := by
  unfold Outline.checkWhole
  split
  · exact .showing _
  · refine .and (.and (.ite .none (.showing _)) (.ite (.showing _) .none)) ?_
    split
    · exact .ite (.showing _) .none
    · exact .none

theorem checkList : Unshown v (checkList v) := by
  unfold Outline.checkList
  split
  · exact .none
  · exact .showing _

theorem checkValues (least : Nat) : Unshown v (checkValues v least) := by
  unfold Outline.checkValues
  split
  · exact .checkLength _ _
  · exact .showing _

theorem checkNames {keys : List Value} (names : List String)
    (hkeys : v.writable = true → ∀ k ∈ keys, k.writable = true) :
    Unshown v (checkNames keys names) := by
  unfold Outline.checkNames
  dsimp only
  refine .ite .none ?_
  split
  · exact .ok _
  · rename_i hunwritable
    rintro _ ⟨⟩
    refine ⟨rfl, Bool.eq_false_iff.2 fun hv => hunwritable (List.all_eq_true.2 fun k hk => ?_)⟩
    exact hkeys hv k (List.mem_filter.1 hk).1

theorem checkRequired (keys : List Value) (required : List String) :
    Unshown v (checkRequired keys required) := by
  refine .all fun a ha => ?_
  obtain ⟨name, -, rfl⟩ := List.mem_map.1 ha
  exact .ite .none (.ok _)

end Unshown

/-! ## Values -/

theorem Value.writable_of_writableItems {items : List Value} (h : writableItems items = true) :
    ∀ w ∈ items, w.writable = true := by
  induction items with
  | nil => exact fun w hw => absurd hw List.not_mem_nil
  | cons w ws ih =>
    obtain ⟨hw, hws⟩ := Bool.and_eq_true_iff.1 h
    exact List.forall_mem_cons.2 ⟨hw, ih hws⟩

theorem Value.writable_of_writableEntries {entries : List (Value × Value)}
    (h : writableEntries entries = true) :
    ∀ e ∈ entries, e.1.writable = true ∧ e.2.writable = true := by
  induction entries with
  | nil => exact fun e he => absurd he List.not_mem_nil
  | cons e es ih =>
    obtain ⟨he, hes⟩ := Bool.and_eq_true_iff.1 h
    exact List.forall_mem_cons.2 ⟨Bool.and_eq_true_iff.1 he, ih hes⟩

theorem Value.writable_entries (hv : v.writable = true) :
    ∀ e ∈ v.entries, e.1.writable = true ∧ e.2.writable = true := by
  cases v with
  | map entries => exact writable_of_writableEntries hv
  | _ => exact fun e he => absurd he List.not_mem_nil

/-- The parts of a value that can be written can be written. -/
theorem Value.writable_of_mem_parts (hv : v.writable = true) : ∀ w ∈ v.parts, w.writable = true := by
  intro w hw
  rcases List.mem_append.1 hw with hw | hw
  · cases v with
    | list items => exact writable_of_writableItems hv w hw
    | _ => exact absurd hw List.not_mem_nil
  · obtain ⟨e, he, rfl⟩ := List.mem_map.1 hw
    exact (writable_entries hv e he).2

section

variable (hparts : ∀ w ∈ v.parts, ∀ form, Unshown v (w.flaws elementForm form))

include hparts

theorem unshown_belowItems (form : Form) :
    Unshown v (belowItems 0 (v.judgedItems.map fun judged => judged form)) := by
  refine .belowItems (fun a ha => ?_) 0
  obtain ⟨judged, hjudged, rfl⟩ := List.mem_map.1 ha
  obtain ⟨w, hw, rfl⟩ := List.mem_map.1 hjudged
  exact hparts w (List.mem_append_left _ hw) form

theorem unshown_judgeMembers (members : List (String × Form)) :
    Unshown v (judgeMembers elementForm v v.judgedItems v.judgedEntries members) := by
  induction members with
  | nil => exact .none
  | cons m ms ih =>
    obtain ⟨name, form⟩ := m
    unfold judgeMembers
    dsimp only
    refine .and ?_ ih
    split
    · rename_i key judged hfind
      obtain ⟨e, he, heq⟩ := List.mem_map.1 (List.mem_of_find?_eq_some hfind)
      cases heq
      exact (hparts e.2 (List.mem_append_right _ (List.mem_map_of_mem he)) form).below
    · exact .none

end

mutual

/-- **A judgement stops only if the value cannot be written.** -/
theorem unshown_judge (hparts : ∀ w ∈ v.parts, ∀ form, Unshown v (w.flaws elementForm form)) :
    ∀ form, Unshown v (Form.judge elementForm v v.judgedItems v.judgedEntries form)
  | .text least choices => by
    unfold Form.judge
    exact .checkText least choices
  | .truth => by
    unfold Form.judge
    exact .checkTruth
  | .whole least most => by
    unfold Form.judge
    exact .checkWhole least most
  | .values least => by
    unfold Form.judge
    exact .checkValues least
  | .list item => by
    unfold Form.judge
    exact .and .checkList (unshown_belowItems hparts item)
  | .elements => by
    unfold Form.judge
    exact .and .checkList (unshown_belowItems hparts elementForm)
  | .record members required => by
    unfold Form.judge
    split
    · refine .and (.and (unshown_judgeMembers hparts members) (.checkRequired _ required))
        (.checkNames _ fun hv k hk => ?_)
      obtain ⟨judged, hjudged, rfl⟩ := List.mem_map.1 hk
      obtain ⟨e, he, rfl⟩ := List.mem_map.1 hjudged
      exact (Value.writable_entries hv e he).1
    · exact .showing _
  | .oneOf options => by
    unfold Form.judge
    refine .bind (unshown_judgeOptions hparts options) fun found => ?_
    cases found with
    | true => exact .ok _
    | false => exact Unshown.showing _

theorem unshown_judgeOptions
    (hparts : ∀ w ∈ v.parts, ∀ form, Unshown v (w.flaws elementForm form)) : ∀ options,
    Unshown v (judgeOptions elementForm v v.judgedItems v.judgedEntries options)
  | [] => .ok _
  | form :: rest => by
    unfold judgeOptions
    refine .bind (unshown_judge hparts form) fun flaws => ?_
    cases flaws with
    | nil => exact .ok _
    | cons flaw flaws => exact unshown_judgeOptions hparts rest

end

/-- **A check stops only for a value that cannot be written.** -/
theorem unwritable_of_flaws (v : Value) : ∀ form, Unshown v (v.flaws elementForm form) := by
  induction v using Value.parts_induction with
  | step v ih =>
    intro form
    rw [flaws_eq_judge]
    exact unshown_judge (fun w hw form =>
      (ih w hw form).of_part fun hv => Value.writable_of_mem_parts hv w hw) form

end Outline

import Outline.Proofs.Rule.Formats
import Outline.Proofs.Yaml.Kept
import Outline.Template.Basic

/-!
# Lines of the front matter of a template

The line for a field has a placeholder for its value, written as a text; what the value is shows
only when the line is read again. **When that value has no faults** (`FieldRule.readsBack_line`):
for a field without choices, whenever some value has none, unless the field asks for a text that is
a date, as the placeholder of a date is no text; for a field with choices, if the first of them is
what its text stands for and has no faults.

* `FieldRule.ReadsBack`: the line is read, and its value has no faults;
* `Written`: what a placeholder stands for;
* `Fits`: values that have the type and the format that are asked for.
-/

namespace Outline

open Yaml Scan

namespace FieldRule

variable {r : FieldRule} {v : Value}

/-- **The line of a field in a template is read as one entry, whose value has no faults.** -/
def ReadsBack (r : FieldRule) : Prop :=
  ∃ line key v, r.line = .ok line ∧ Yaml.load line = .ok (.map [(key, v)]) ∧ r.messages v = .ok []

/-! ## Lines -/

/-- The spaces before the comment of a line. -/
def gap (r : FieldRule) : List Char := if r.optional then [] else [' ', ' ']

/-- The comment of a line. -/
def note (r : FieldRule) : List Char := if r.optional then [] else "# required".toList

theorem inline_note : ∀ c ∈ "# required".toList, isInline c = true :=
  List.all_eq_true.1 (by decide)

theorem behind_note (r : FieldRule) : Behind r.gap r.note := by
  unfold gap note
  cases r.optional
  · show Behind [' ', ' '] "# required".toList
    exact .comment (by simp) (by simp) rfl
  · exact .ending rfl (by simp) noBreak_nil

theorem passed_note (r : FieldRule) : Passed r.note [] := by
  unfold note
  cases r.optional
  · exact .comment (List.forall_mem_nil _) rfl inline_note
  · exact .spaces (.nil (by simp) noBreak_nil) (by simp)

theorem passed_gap (r : FieldRule) : Passed (r.gap ++ r.note) [] := by
  unfold gap note
  cases r.optional
  · exact Passed.comment (show ∀ c ∈ [' ', ' '], c = ' ' by simp) rfl inline_note
  · exact .spaces (.nil (by simp) noBreak_nil) (by simp)

theorem yaml_note (r : FieldRule) : (r.gap ++ r.note).all isYamlChar = true := by
  unfold gap note
  cases r.optional <;> decide

theorem line_eq {text : String} (h : r.placeholder = .ok text) : ∃ line, r.line = .ok line ∧
    line.toList = r.name.toList ++ ':' :: ' ' :: (text.toList ++ (r.gap ++ r.note)) := by
  refine ⟨_, by rw [line, h]; rfl, ?_⟩
  unfold gap note
  cases r.optional <;> simp [String.toList_append]

/-! ## Placeholders -/

/-- **What a placeholder is read as**: a plain scalar, a quoted text, or two of them in brackets. -/
inductive Written : List Char → Value → Prop
  | plain {text : List Char} {v : Value} (hline : isPlainLine text = true)
      (hvalue : plainValue text = .ok v) : Written text v
  | quoted {text : List Char} (htext : Quotable text) :
      Written (Yaml.quoted text []) (.str (String.ofList text))
  | items {first second : List Char} (hfirst : Quotable first) (hsecond : Quotable second)
      (hshort : first.length ≤ 1000 ∧ second.length ≤ 1000) :
      Written ('[' :: Yaml.quoted first (',' :: ' ' :: Yaml.quoted second [']']))
        (.list [.str (String.ofList first), .str (String.ofList second)])

theorem loads_of_written (hname : Lettered r.name.toList) (hlength : r.name.length ≤ 1024)
    {text : String} (hplaceholder : r.placeholder = .ok text) (h : Written text.toList v) :
    ∃ line key, r.line = .ok line ∧ Yaml.load line = .ok (.map [(key, v)]) := by
  obtain ⟨line, hline, htoList⟩ := line_eq hplaceholder
  have hshort : r.name.toList.length ≤ 1024 := hlength
  refine ⟨line, ?_⟩
  generalize text.toList = cs at h htoList
  cases h with
  | plain hplain hvalue =>
    obtain ⟨key, hload⟩ := load_plainEntry hname hshort hplain r.behind_note r.passed_note
      r.yaml_note htoList
    exact ⟨key, hline, by rw [hload, hvalue]; rfl⟩
  | quoted htext =>
    obtain ⟨key, hload⟩ := load_quotedEntry hname hshort htext r.passed_gap r.yaml_note
      (by simpa [quoted_append] using htoList)
    exact ⟨key, hline, hload⟩
  | items hfirst hsecond hitems =>
    obtain ⟨key, hload⟩ := load_itemsEntry hname hshort hfirst hsecond hitems r.passed_gap
      r.yaml_note (by simpa [quoted_append] using htoList)
    exact ⟨key, hline, hload⟩

/-- The value that the placeholder of a field without choices stands for. -/
def sample (format : Option FieldFormat) (type : Option FieldType) : Value :=
  if format = some .date || type = some .date then .date ⟨2024, 1, 1⟩
  else match format, type with
    | some .email, _ => .str "user@example.com"
    | some .url, _ => .str "https://example.com"
    | _, some .number => .int 0
    | _, some .boolean => .bool false
    | _, some .array => .list [.str "item1", .str "item2"]
    | _, _ => .str "TODO"

theorem quotable_of_all {text : List Char}
    (h : text.all (fun c => isSolid c && isInline c && isYamlChar c) = true) : Quotable text := by
  simp only [List.all_eq_true, Bool.and_eq_true] at h
  exact ⟨fun c hc => (h c hc).1.1, fun c hc => (h c hc).1.2, fun c hc => (h c hc).2⟩

theorem written_date : Written "2024-01-01".toList (.date ⟨2024, 1, 1⟩) := .plain (by decide) rfl

theorem written_email : Written "user@example.com".toList (.str "user@example.com") :=
  .plain (by decide) rfl

theorem written_url : Written "https://example.com".toList (.str "https://example.com") :=
  .plain (by decide) rfl

theorem written_zero : Written "0".toList (.int 0) := .plain (by decide) rfl

theorem written_false : Written "false".toList (.bool false) := .plain (by decide) rfl

theorem written_items :
    Written "[\"item1\", \"item2\"]".toList (.list [.str "item1", .str "item2"]) :=
  have hfirst : Quotable "item1".toList := quotable_of_all (by decide)
  have hsecond : Quotable "item2".toList := quotable_of_all (by decide)
  .items hfirst hsecond (by decide)

theorem written_text : Written "\"TODO\"".toList (.str "TODO") :=
  have htext : Quotable "TODO".toList := quotable_of_all (by decide)
  .quoted htext

theorem written_placeholder (hchoices : r.choices = []) :
    ∃ text, r.placeholder = .ok text ∧ Written text.toList (sample r.format r.type) := by
  rw [placeholder, hchoices]
  unfold sample
  dsimp only
  split_ifs
  · exact ⟨_, rfl, written_date⟩
  · generalize r.format = format
    generalize r.type = type
    match format, type with
    | some .email, _ => exact ⟨_, rfl, written_email⟩
    | some .url, _ => exact ⟨_, rfl, written_url⟩
    | none, some .number | some .date, some .number => exact ⟨_, rfl, written_zero⟩
    | none, some .boolean | some .date, some .boolean => exact ⟨_, rfl, written_false⟩
    | none, some .array | some .date, some .array => exact ⟨_, rfl, written_items⟩
    | none, none | some .date, none | none, some .string | some .date, some .string
    | none, some .date | some .date, some .date => exact ⟨_, rfl, written_text⟩

/-! ## Values that pass -/

theorem isValidDate_eq_false_of_mail {s : String} (h : isMailAddress s = true) :
    isValidDate (.str s) = false :=
  not_writesDate_of_mem (at_mem_of_isMailAddress h) (by decide)

theorem isValidDate_eq_false_of_page {s : String} (h : isPageAddress s = .ok true) :
    isValidDate (.str s) = false :=
  not_writesDate_of_mem (slash_mem_of_isPageAddress h) (by decide)

/-- A value has a type and a format, where these are asked for. -/
def Fits (name : String) (format : Option FieldFormat) (type : Option FieldType) (v : Value) :
    Prop :=
  (∀ t ∈ type, t.holds v = true) ∧ ∀ f ∈ format, formatMessages name f v = .ok []

theorem passes_iff (hpattern : r.pattern = "") : r.messages v = .ok [] ↔
    Fits r.name r.format r.type v ∧ choiceMessages r.name r.choices v = .ok [] := by
  rw [messages_eq_nil_iff hpattern, Fits, and_assoc]

section Fits

variable {name : String} {type : Option FieldType}

/-- The only type of a text that is no date is that of texts. -/
theorem type_of_text {s : String} (h : ∀ t ∈ type, t.holds (.str s) = true)
    (hdate : isValidDate (.str s) = false) : type = none ∨ type = some .string := by
  cases type with
  | none => exact .inl rfl
  | some t =>
    have hholds := h t rfl
    cases t
    case string => exact .inr rfl
    all_goals simp [FieldType.holds, hdate] at hholds

/-- **If any value fits, so does that of the placeholder**, unless a text is asked for that is a
date. -/
theorem fits_sample {format : Option FieldFormat} (h : Fits name format type v)
    (hdate : ¬(type = some .string ∧ format = some .date)) :
    Fits name format type (sample format type) := by
  obtain ⟨htype, hformat⟩ := h
  rcases format with _ | _ | _ | _
  case none =>
    refine ⟨?_, by simp⟩
    cases type with
    | none => simp
    | some t => cases t <;> simp [sample, FieldType.holds, isValidDate]
  case some.date =>
    have hvalid := formatMessages_date_iff.1 (hformat _ rfl)
    refine ⟨?_, by simp [sample, formatMessages, isValidDate]⟩
    cases type with
    | none => simp
    | some t =>
      have hholds := htype t rfl
      cases t
      case string => exact absurd ⟨rfl, rfl⟩ hdate
      case date => simp [sample, FieldType.holds, isValidDate]
      -- a number, a truth value or a list is no date
      all_goals cases v <;> simp_all [FieldType.holds, isValidDate]
  case some.email =>
    obtain ⟨s, rfl, hmail⟩ := formatMessages_email_iff.1 (hformat _ rfl)
    have hsample : formatMessages name .email (.str "user@example.com") = .ok [] :=
      formatMessages_email_iff.2 ⟨_, rfl, by decide +kernel⟩
    rcases type_of_text htype (isValidDate_eq_false_of_mail hmail) with rfl | rfl
    · simp [Fits, sample, hsample]
    · simp [Fits, sample, FieldType.holds, hsample]
  case some.url =>
    obtain ⟨s, rfl, hpage⟩ := formatMessages_url_iff.1 (hformat _ rfl)
    have hsample : formatMessages name .url (.str "https://example.com") = .ok [] :=
      formatMessages_url_iff.2 ⟨_, rfl, rfl⟩
    rcases type_of_text htype (isValidDate_eq_false_of_page hpage) with rfl | rfl
    · simp [Fits, sample, hsample]
    · simp [Fits, sample, FieldType.holds, hsample]

end Fits

theorem readsBack_iff_of_load {line : String} {key : Value} (hline : r.line = .ok line)
    (hload : Yaml.load line = .ok (.map [(key, v)])) : r.ReadsBack ↔ r.messages v = .ok [] := by
  constructor
  · rintro ⟨line', key', v', hline', hload', h⟩
    cases hline.symm.trans hline'
    rw [hload] at hload'
    cases hload'
    exact h
  · exact fun h => ⟨line, key, v, hline, hload, h⟩

theorem readsBack_iff_of_written (hname : Lettered r.name.toList) (hlength : r.name.length ≤ 1024)
    {text : String} (hplaceholder : r.placeholder = .ok text) (h : Written text.toList v) :
    r.ReadsBack ↔ r.messages v = .ok [] := by
  obtain ⟨line, key, hline, hload⟩ := loads_of_written hname hlength hplaceholder h
  exact readsBack_iff_of_load hline hload

/-- A field without choices. -/
theorem readsBack_iff_of_noChoices (hname : Lettered r.name.toList)
    (hlength : r.name.length ≤ 1024) (hpattern : r.pattern = "") (hchoices : r.choices = []) :
    r.ReadsBack ↔ (∃ v, r.messages v = .ok []) ∧
      ¬(r.type = some .string ∧ r.format = some .date) := by
  obtain ⟨text, hplaceholder, hwritten⟩ := written_placeholder hchoices
  have hchoice (v : Value) : choiceMessages r.name r.choices v = .ok [] := by
    rw [choiceMessages, hchoices]
    rfl
  rw [readsBack_iff_of_written hname hlength hplaceholder hwritten]
  constructor
  · intro h
    refine ⟨⟨_, h⟩, fun ⟨htype, hformat⟩ => ?_⟩
    have hholds := ((passes_iff hpattern).1 h).1.1 .string htype
    rw [htype, hformat] at hholds
    cases hholds
  · rintro ⟨⟨v, h⟩, hdate⟩
    -- without choices and a pattern, a value passes if it fits
    exact (passes_iff hpattern).2 ⟨fits_sample ((passes_iff hpattern).1 h).1 hdate, hchoice _⟩

theorem readsBack_iff_of_plain (hname : Lettered r.name.toList) (hlength : r.name.length ≤ 1024)
    {text : String} (hplaceholder : r.placeholder = .ok text)
    (hplain : isPlainLine text.toList = true) :
    r.ReadsBack ↔ ∃ v, plainValue text.toList = .ok v ∧ r.messages v = .ok [] := by
  cases hvalue : plainValue text.toList with
  | ok v =>
    rw [readsBack_iff_of_written hname hlength hplaceholder (.plain hplain hvalue)]
    simp
  | error fault =>
    refine iff_of_false ?_ (by simp)
    rintro ⟨line, key, v, hline, hload, -⟩
    obtain ⟨line', hline', htoList⟩ := line_eq hplaceholder
    cases hline.symm.trans hline'
    obtain ⟨key', hfault⟩ := load_plainEntry hname hlength hplain r.behind_note r.passed_note
      r.yaml_note htoList
    rw [hvalue, hload] at hfault
    cases hfault

theorem readsBack_iff_of_kept (hname : Lettered r.name.toList) (hlength : r.name.length ≤ 1024)
    {c : Value} {cs : List Value} (hchoices : r.choices = c :: cs) (hc : c.Kept) :
    r.ReadsBack ↔ r.messages c = .ok [] := by
  have hplaceholder : r.placeholder = .ok c.text := by
    rw [placeholder, hchoices]
    exact hc.text?
  exact readsBack_iff_of_written hname hlength hplaceholder (.plain hc.isPlainLine hc.plainValue)

/-- A name that is too long for a key spoils the line. -/
theorem not_readsBack_of_longName (hname : Lettered r.name.toList)
    (hlength : 1024 < r.name.length) : ¬r.ReadsBack := by
  rintro ⟨line, key, v, hline, hload, -⟩
  cases hplaceholder : r.placeholder with
  | error fault =>
    rw [FieldRule.line, hplaceholder] at hline
    cases hline
  | ok text =>
    obtain ⟨line', hline', htoList⟩ := line_eq hplaceholder
    cases hline.symm.trans hline'
    rw [load_longName hname hlength htoList] at hload
    cases hload

/-! ## What is read back -/

/-- **When the value of the line for a field passes.** For a field without choices it does if any
value does, unless it asks for a text that is a date; for one with choices, if the first of them
passes and is what its text stands for; and never if the name is too long for a key. -/
theorem readsBack_line (r : FieldRule) (hname : Lettered r.name.toList)
    (hpattern : r.pattern = "") :
    (1024 < r.name.length → ¬r.ReadsBack) ∧
    (r.name.length ≤ 1024 →
      (r.choices = [] → (r.ReadsBack ↔ (∃ v, r.messages v = .ok []) ∧
        ¬(r.type = some .string ∧ r.format = some .date))) ∧
      ∀ c cs, r.choices = c :: cs →
        (c.Kept → (r.ReadsBack ↔ r.messages c = .ok [])) ∧
        ∀ text, c.text? = .ok text → isPlainLine text.toList = true →
          (r.ReadsBack ↔ ∃ v, plainValue text.toList = .ok v ∧ r.messages v = .ok [])) := by
  refine ⟨not_readsBack_of_longName hname, fun hlength =>
    ⟨readsBack_iff_of_noChoices hname hlength hpattern, fun c cs hchoices =>
      ⟨readsBack_iff_of_kept hname hlength hchoices, fun text htext hplain => ?_⟩⟩⟩
  have hplaceholder : r.placeholder = .ok text := by
    rw [placeholder, hchoices]
    exact htext
  exact readsBack_iff_of_plain hname hlength hplaceholder hplain

/-- A field for a text, the first of two choices. -/
def stateField : FieldRule :=
  { name := "state", type := some .string, choices := [.str "to do", .int 3] }

theorem readsBack_stateField : Lettered stateField.name.toList ∧ stateField.pattern = "" ∧
    stateField.ReadsBack := by
  have hname : Lettered stateField.name.toList := ⟨by decide, List.all_eq_true.1 (by decide)⟩
  have hkept : (Value.str "to do").Kept := .str (by decide) rfl
  have hline := (readsBack_line stateField hname rfl).2 (by decide)
  exact ⟨hname, rfl, ((hline.2 _ _ rfl).1 hkept).2 rfl⟩

/-- A field for a text that is a date. -/
def dayField : FieldRule := { name := "day", type := some .string, format := some .date }

/-- **A text can be a date, but the placeholder is no text**: it is read as a date. -/
theorem not_readsBack_dayField : Lettered dayField.name.toList ∧ dayField.pattern = "" ∧
    dayField.messages (.str "2024-01-01") = .ok [] ∧ ¬dayField.ReadsBack := by
  have hname : Lettered dayField.name.toList := ⟨by decide, List.all_eq_true.1 (by decide)⟩
  refine ⟨hname, rfl, rfl, fun h => ?_⟩
  exact ((readsBack_iff_of_noChoices hname (by decide) rfl rfl).1 h).2 ⟨rfl, rfl⟩

end FieldRule

end Outline

import Mathlib.Data.List.TakeDrop
import Outline.Document.Build
import Outline.Proofs.Expr.Fault
import Outline.Proofs.Rule.Journal
import Outline.Schema.Load

/-!
# When the rule on front matter finishes

All values of a field get messages, except for three kinds of data: addresses whose host cannot be
read, whole numbers that a message would have to write and that are too long for it, and patterns
that cannot be used for another reason than being malformed (**`frontMatterRule_finishes`**).

* `FieldRule.Raises`: what stops the check of the value of a field;
* `Context.FrontMatterRaises`: what stops the rule;
* `hostile_of_splitAddress`: only certain characters make a host unreadable.
-/

namespace Outline

variable {fault : Fault}

/-! ## Addresses -/

/-- A character that may make the host of an address unreadable. -/
def isHostile (c : Char) : Bool := c == '[' || c == ']' || hidesDelimiter c

/-- A fault in an address for its host, with a character that may make one unreadable among the given
ones. -/
def UnreadableHost (cs : List Char) (fault : Fault) : Prop :=
  (∃ why, fault = .address why) ∧ ∃ c ∈ cs, isHostile c = true

theorem UnreadableHost.mono {cs cs' : List Char} {fault : Fault} (h : UnreadableHost cs fault)
    (hsub : cs ⊆ cs') : UnreadableHost cs' fault := by
  obtain ⟨hwhy, c, hc, hhostile⟩ := h
  exact ⟨hwhy, c, hsub hc, hhostile⟩

theorem checkBracketed_failsFor (host : List Char) :
    FailsFor (∃ why, · = .address why) (checkBracketed host) := by
  intro fault h
  unfold checkBracketed at h
  split_ifs at h <;> cases h <;> exact ⟨_, rfl⟩

theorem checkBrackets_failsFor (authority : List Char) :
    FailsFor (UnreadableHost authority) (checkBrackets authority) := by
  intro fault h
  have hhostile : authority.contains '[' = true ∨ authority.contains ']' = true →
      ∃ c ∈ authority, isHostile c = true := by
    rintro (hc | hc)
    · exact ⟨'[', List.contains_iff_mem.1 hc, by decide⟩
    · exact ⟨']', List.contains_iff_mem.1 hc, by decide⟩
  unfold checkBrackets at h
  split at h
  · cases h
  · rename_i hopen hclose
    refine ⟨?_, hhostile (.inl hopen)⟩
    dsimp only at h
    split at h
    · split at h
      · cases h
        exact ⟨_, rfl⟩
      · exact checkBracketed_failsFor _ fault h
    · exact checkBracketed_failsFor _ fault h
  · rename_i hne _
    cases h
    refine ⟨⟨_, rfl⟩, hhostile ?_⟩
    by_contra hnone
    obtain ⟨hopen, hclose⟩ := not_or.1 hnone
    exact hne (Bool.eq_false_iff.2 hopen) (Bool.eq_false_iff.2 hclose)

theorem checkDelimiters_failsFor (authority : List Char) :
    FailsFor (UnreadableHost authority) (checkDelimiters authority) := by
  intro fault h
  unfold checkDelimiters at h
  split_ifs at h with hany
  cases h
  obtain ⟨c, hc, hhides⟩ := List.any_eq_true.1 hany
  exact ⟨⟨_, rfl⟩, c, hc, by rw [isHostile, hhides, Bool.or_true]⟩

theorem subset_splitScheme (cs : List Char) : (splitScheme cs).2 ⊆ cs := by
  intro c hc
  unfold splitScheme at hc
  have hspan : (cs.span (· != ':')).1 ++ (cs.span (· != ':')).2 = cs := by
    rw [List.span_eq_takeWhile_dropWhile, List.takeWhile_append_dropWhile]
  generalize cs.span (· != ':') = halves at hspan hc
  obtain ⟨scheme, rest⟩ := halves
  dsimp only at hspan hc
  split at hc
  · rename_i first others sep rest
    split at hc
    · rw [← hspan]
      exact List.mem_append_right _ (List.mem_cons_of_mem _ hc)
    · exact hc
  · exact hc

/-- **Only certain characters make the host of an address unreadable.** -/
theorem hostile_of_splitAddress (address : String) :
    FailsFor (UnreadableHost address.toList) (splitAddress address) := by
  have hkept : cleanAddress address.toList ⊆ address.toList := fun c hc =>
    (List.dropWhile_sublist _).subset (List.mem_filter.1 hc).1
  unfold splitAddress
  have hrest := subset_splitScheme (cleanAddress address.toList)
  generalize splitScheme (cleanAddress address.toList) = parts at hrest ⊢
  obtain ⟨scheme, rest⟩ := parts
  dsimp only at hrest ⊢
  split
  · rename_i rest
    set authority := rest.takeWhile fun c => c != '/' && c != '?' && c != '#' with hauthority
    have hinside : authority ⊆ address.toList := fun c hc =>
      hkept (hrest (List.mem_cons_of_mem _ (List.mem_cons_of_mem _
        ((List.takeWhile_sublist _).subset hc))))
    exact ((checkBrackets_failsFor authority).mono fun _ h => h.mono hinside).bind fun _ =>
      ((checkDelimiters_failsFor authority).mono fun _ h => h.mono hinside).bind fun _ => .ok _
  · exact .ok _

/-! ## Fields -/

theorem text?_eq_error_iff {v : Value} :
    v.text? = .error fault ↔ fault = .tooManyDigits none ∧ v.writable = false := by
  unfold Value.text?
  split
  · rename_i hwritable
    rw [hwritable]
    simp
  · rename_i hunwritable
    rw [Bool.eq_false_iff.2 hunwritable]
    simp [eq_comm]

theorem formatMessages_eq_error_iff {name : String} {f : FieldFormat} {v : Value} :
    formatMessages name f v = .error fault ↔
      f = .url ∧ ∃ s, v = .str s ∧ splitAddress s = .error fault := by
  cases f with
  | url =>
    cases v with
    | str s =>
      have h : formatMessages name .url (.str s) = .error fault ↔
          splitAddress s = .error fault := by
        unfold formatMessages isPageAddress
        rw [bind_pure_eq_error_iff, bind_pure_eq_error_iff]
      simp [h]
    | _ => simp [formatMessages]
  | date => simp [formatMessages]
  | email => cases v <;> simp [formatMessages]

/-- A message with the texts of choices and of a value fails exactly if one of them cannot be
written. -/
theorem message_eq_error_iff {message : List String → String → List String} {choices : List Value}
    {v : Value} :
    (choices.mapM Value.text? >>= fun allowed => do return message allowed (← v.text?)) =
        .error fault ↔
      fault = .tooManyDigits none ∧ ∃ w ∈ v :: choices, w.writable = false := by
  rw [mapM_text?, bind_eq_error_iff]
  simp only [bind_pure_eq_error_iff, text?_eq_error_iff]
  by_cases hall : choices.all Value.writable = true
  · have hchoices := List.all_eq_true.1 hall
    simp only [hall, if_true]
    constructor
    · rintro (h | ⟨_, -, rfl, hv⟩)
      · cases h
      · exact ⟨rfl, v, List.mem_cons_self, hv⟩
    · rintro ⟨rfl, w, hw, hunwritable⟩
      refine .inr ⟨_, rfl, rfl, ?_⟩
      rcases List.mem_cons.1 hw with rfl | hw
      · exact hunwritable
      · rw [hchoices w hw] at hunwritable
        cases hunwritable
  · obtain ⟨w, hw, hunwritable⟩ : ∃ w ∈ choices, w.writable = false := by
      simpa using hall
    simp only [hall]
    constructor
    · rintro (h | ⟨_, h, -⟩) <;> cases h
      exact ⟨rfl, w, List.mem_cons_of_mem _ hw, hunwritable⟩
    · rintro ⟨rfl, -⟩
      exact .inl rfl

theorem choiceMessages_eq_error_iff {name : String} {choices : List Value} {v : Value} :
    choiceMessages name choices v = .error fault ↔
      choices ≠ [] ∧ (∀ choice ∈ choices, choice.same v = false) ∧ fault = .tooManyDigits none ∧
        ∃ w ∈ v :: choices, w.writable = false := by
  unfold choiceMessages
  split
  · rename_i hskip
    refine iff_of_false (by rintro ⟨⟩) ?_
    rintro ⟨hne, hnone, -⟩
    rcases Bool.or_eq_true_iff.1 hskip with hempty | hsome
    · exact hne (List.isEmpty_iff.1 hempty)
    · obtain ⟨choice, hchoice, hsame⟩ := List.any_eq_true.1 hsome
      rw [hnone choice hchoice] at hsame
      cases hsame
  · rename_i hgo
    obtain ⟨hne, hnone⟩ := not_or.1 (mt Bool.or_eq_true_iff.2 hgo)
    have hnone : ∀ choice ∈ choices, choice.same v = false := fun choice hchoice =>
      Bool.eq_false_iff.2 fun hsame => hnone (List.any_eq_true.2 ⟨choice, hchoice, hsame⟩)
    rw [and_iff_right (mt List.isEmpty_iff.2 hne), and_iff_right hnone]
    exact message_eq_error_iff

theorem patternMessages_eq_error_iff {name pattern : String} {v : Value} :
    patternMessages name pattern v = .error fault ↔
      pattern ≠ "" ∧ (fault = .tooManyDigits none ∧ v.writable = false ∨
        v.writable = true ∧ Unusable pattern fault) := by
  unfold patternMessages
  split
  · rename_i hempty
    exact iff_of_false (by rintro ⟨⟩) fun h => h.1 (String.isEmpty_iff.1 hempty)
  · rename_i hnonempty
    rw [and_iff_right (mt String.isEmpty_iff.2 hnonempty)]
    unfold Value.text? Unusable
    cases v.writable with
    | false => exact ⟨fun h => by cases h; simp, by rintro (⟨rfl, -⟩ | ⟨⟨⟩, -⟩); rfl⟩
    | true =>
      cases Regex.compile pattern with
      | ok p => simp [pure, Except.pure, bind, Except.bind]
      | error e =>
        cases hfault : e.fault? <;>
          simp [hfault, pure, Except.pure, bind, Except.bind, throw, throwThe, MonadExceptOf.throw]

namespace FieldRule

/-- **What stops the check of the value of a field.** -/
inductive Raises (r : FieldRule) (v : Value) : Fault → Prop
  /-- An address of a page whose host cannot be read. -/
  | address {s : String} {fault : Fault} (hformat : r.format = some .url) (hv : v = .str s)
      (h : splitAddress s = .error fault) : Raises r v fault
  /-- A message about choices would write too long a number. -/
  | choice (hchoices : r.choices ≠ []) (hnone : ∀ choice ∈ r.choices, choice.same v = false)
      (h : ∃ w ∈ v :: r.choices, w.writable = false) : Raises r v (.tooManyDigits none)
  /-- The text in which a match is looked for would have too long a number. -/
  | subject (hpattern : r.pattern ≠ "") (h : v.writable = false) :
      Raises r v (.tooManyDigits none)
  /-- A pattern that cannot be used, and not for being malformed. -/
  | pattern {fault : Fault} (hpattern : r.pattern ≠ "") (h : Unusable r.pattern fault) :
      Raises r v fault

variable {r : FieldRule} {v : Value}

/-- The checks of a value that may stop, in their order. -/
theorem messages_eq (r : FieldRule) (v : Value) : r.messages v = do
    let format ← (match r.format with
      | some f => formatMessages r.name f v
      | none => .ok [])
    let choice ← choiceMessages r.name r.choices v
    let pattern ← patternMessages r.name r.pattern v
    return (match r.type with
      | some t => typeMessages r.name t v
      | none => []) ++ format ++ choice ++ pattern := by
  unfold messages
  cases r.format <;> rfl

theorem messages_failsFor (r : FieldRule) (v : Value) : FailsFor (r.Raises v) (r.messages v) := by
  rw [messages_eq]
  refine .bind ?_ fun format => .bind ?_ fun choice => .bind ?_ fun pattern => .ok _
  · split
    · rename_i f hf
      intro fault h
      obtain ⟨rfl, s, hs, h⟩ := formatMessages_eq_error_iff.1 h
      exact .address hf hs h
    · exact .ok _
  · intro fault h
    obtain ⟨hchoices, hnone, hfault, h⟩ := choiceMessages_eq_error_iff.1 h
    exact hfault ▸ .choice hchoices hnone h
  · intro fault h
    obtain ⟨hpattern, ⟨hfault, h⟩ | ⟨-, h⟩⟩ := patternMessages_eq_error_iff.1 h
    · exact hfault ▸ .subject hpattern h
    · exact .pattern hpattern h

/-- A value that has messages has been through all checks. -/
theorem not_raises_of_messages {ms : List String} (h : r.messages v = .ok ms) :
    ¬r.Raises v fault := by
  rw [messages_eq] at h
  obtain ⟨format, hformat, h⟩ := bind_eq_ok.1 h
  obtain ⟨choice, hchoice, h⟩ := bind_eq_ok.1 h
  obtain ⟨pattern, hpattern, -⟩ := bind_eq_ok.1 h
  have hnotPattern : ∀ fault, patternMessages r.name r.pattern v ≠ .error fault := by
    simp [hpattern]
  rintro (⟨hf, hs, h⟩ | ⟨hchoices, hnone, h⟩ | ⟨hne, h⟩ | ⟨hne, h⟩)
  · rw [hf] at hformat
    have herror := (@formatMessages_eq_error_iff fault r.name .url v).2 ⟨rfl, _, hs, h⟩
    cases herror.symm.trans hformat
  · have herror := (@choiceMessages_eq_error_iff _ r.name r.choices v).2
      ⟨hchoices, hnone, rfl, h⟩
    cases herror.symm.trans hchoice
  · exact hnotPattern _ (patternMessages_eq_error_iff.2 ⟨hne, .inl ⟨rfl, h⟩⟩)
  · by_cases hv : v.writable = true
    · exact hnotPattern _ (patternMessages_eq_error_iff.2 ⟨hne, .inr ⟨hv, h⟩⟩)
    · exact hnotPattern _ (patternMessages_eq_error_iff.2
        ⟨hne, .inl ⟨rfl, Bool.eq_false_iff.2 hv⟩⟩)

/-- **The check of a value finishes unless something stops it.** -/
theorem exists_messages_eq_error_iff :
    (∃ fault, r.messages v = .error fault) ↔ ∃ fault, r.Raises v fault := by
  constructor
  · rintro ⟨fault, h⟩
    exact ⟨fault, messages_failsFor r v fault h⟩
  · rintro ⟨fault, h⟩
    cases hms : r.messages v with
    | ok ms => exact absurd h (not_raises_of_messages hms)
    | error fault' => exact ⟨fault', rfl⟩

end FieldRule

/-- A text without characters that may make a host unreadable gets messages, if the pattern can be
used and all choices can be written. -/
theorem FieldRule.exists_messages_of_text {r : FieldRule} {s : String}
    (hs : r.format = some .url → ∀ c ∈ s.toList, isHostile c = false)
    (hchoices : ∀ choice ∈ r.choices, choice.writable = true)
    (hpattern : ∀ fault, ¬Unusable r.pattern fault) : ∃ ms, r.messages (.str s) = .ok ms := by
  cases hms : r.messages (.str s) with
  | ok ms => exact ⟨ms, rfl⟩
  | error fault =>
    exfalso
    cases messages_failsFor r (.str s) fault hms with
    | address hformat hv h =>
      cases hv
      obtain ⟨-, c, hc, hhostile⟩ := hostile_of_splitAddress s fault h
      rw [hs hformat c hc] at hhostile
      cases hhostile
    | choice _ _ h =>
      obtain ⟨w, hw, hunwritable⟩ := h
      rcases List.mem_cons.1 hw with rfl | hw
      · cases hunwritable
      · rw [hchoices w hw] at hunwritable
        cases hunwritable
    | subject _ h => cases h
    | pattern _ h => exact hpattern fault h

/-! ## Front matter -/

/-- The fields of the front matter of a document, with the values that they have. -/
def Context.FieldValue (c : Context) (r : FieldRule) (v : Value) : Prop :=
  ∃ rules f entries, c.schema.frontMatter = some rules ∧ c.document.frontMatter = some f ∧
    f.entries = .ok entries ∧ r ∈ rules.fields ∧ (Value.map entries).get? r.name = some v

/-- **What stops the rule on front matter**: a field with a value that stops its check. -/
def Context.FrontMatterRaises (c : Context) (fault : Fault) : Prop :=
  ∃ r v, c.FieldValue r v ∧ r.Raises v fault

theorem entryMessages_eq_error_iff {entries : List (Value × Value)} {r : FieldRule} :
    entryMessages entries r = .error fault ↔
      ∃ v, (Value.map entries).get? r.name = some v ∧ r.messages v = .error fault := by
  unfold entryMessages
  cases (Value.map entries).get? r.name with
  | none => simp
  | some v => simp

theorem exists_frontMatterMessages_eq_error_iff {rules : FrontMatterRules}
    {frontMatter : Option FrontMatter} :
    (∃ fault, frontMatterMessages rules frontMatter = .error fault) ↔
      ∃ f entries, frontMatter = some f ∧ f.entries = .ok entries ∧
        ∃ r ∈ rules.fields, ∃ fault, entryMessages entries r = .error fault := by
  unfold frontMatterMessages
  cases frontMatter with
  | none => simp
  | some f =>
    dsimp only
    cases hentries : f.entries with
    | error e => simp [hentries]
    | ok entries =>
      simp only [bind_pure_eq_error_iff, exists_mapM_eq_error_iff, Option.some.injEq]
      constructor
      · intro h
        exact ⟨f, entries, rfl, hentries, h⟩
      · rintro ⟨_, entries', rfl, hentries', h⟩
        cases hentries.symm.trans hentries'
        exact h

theorem frontMatterMessages_failsFor {c : Context} {rules : FrontMatterRules}
    (hrules : c.schema.frontMatter = some rules) :
    FailsFor c.FrontMatterRaises (frontMatterMessages rules c.document.frontMatter) := by
  unfold frontMatterMessages
  split
  · exact .ok _
  · rename_i f hf
    split
    · rename_i entries hentries
      refine .bind (.mapM fun r hr fault h => ?_) fun _ => .ok _
      obtain ⟨v, hv, h⟩ := entryMessages_eq_error_iff.1 h
      exact ⟨r, v, ⟨rules, f, entries, hrules, hf, hentries, hr, hv⟩, r.messages_failsFor v fault h⟩
    · exact .ok _

/-- **The messages come to an end unless a field has a value that stops its check.** -/
theorem exists_frontMatterMessages_eq_ok_iff {c : Context} {rules : FrontMatterRules}
    (hrules : c.schema.frontMatter = some rules) :
    (∃ ms, frontMatterMessages rules c.document.frontMatter = .ok ms) ↔
      ¬∃ fault, c.FrontMatterRaises fault := by
  constructor
  · rintro ⟨ms, hms⟩ ⟨fault, r, v, ⟨rules', f, entries, hrules', hf, hentries, hr, hv⟩, h⟩
    cases hrules.symm.trans hrules'
    obtain ⟨fault', h⟩ := FieldRule.exists_messages_eq_error_iff.2 ⟨fault, h⟩
    obtain ⟨fault'', h⟩ := exists_frontMatterMessages_eq_error_iff.2
      ⟨f, entries, hf, hentries, r, hr, fault', entryMessages_eq_error_iff.2 ⟨v, hv, h⟩⟩
    cases h.symm.trans hms
  · intro hnone
    cases hmessages : frontMatterMessages rules c.document.frontMatter with
    | ok messages => exact ⟨messages, rfl⟩
    | error fault => exact absurd ⟨fault, frontMatterMessages_failsFor hrules fault hmessages⟩ hnone

/-- The result of the rule, whatever the journal holds. -/
theorem result_frontMatterRule (c : Context) (j : Journal) : (frontMatterRule c).result j =
    (match c.schema.frontMatter with
      | some rules => (frontMatterMessages rules c.document.frontMatter).map fun messages =>
          messages.map fun m => reported "frontmatter" m (1, 1)
      | none => .ok [], j) := by
  unfold frontMatterRule
  cases c.schema.frontMatter with
  | none => rfl
  | some rules =>
    dsimp only
    rw [Run.result_bind, Run.result_lift]
    cases frontMatterMessages rules c.document.frontMatter <;> rfl

/-- **What becomes of the rule on front matter.** It finishes unless a value stops its check, and then
all its violations are at the start of the document. A text stops no check of its format, but for an
address of a page in which certain characters stand. -/
structure FrontMatterChecked (c : Context) (result : Except Fault (List Violation)) : Prop where
  finishes : (∃ vs, result = .ok vs) ↔ ¬∃ fault, c.FrontMatterRaises fault
  raises : ∀ fault, result = .error fault → c.FrontMatterRaises fault
  atStart : ∀ vs, result = .ok vs → ∀ v ∈ vs, ∃ m, v = reported "frontmatter" m (1, 1)
  texts : ∀ r s, c.FieldValue r (.str s) →
    (r.format = some .url → ∀ ch ∈ s.toList, isHostile ch = false) →
    (∀ choice ∈ r.choices, choice.writable = true) → (∀ fault, ¬Unusable r.pattern fault) →
      ∃ ms, r.messages (.str s) = .ok ms

/-- **The rule on front matter finishes**, but for hosts that cannot be read, numbers that are too
long to be written, and patterns that cannot be used and are not malformed. -/
theorem frontMatterRule_finishes (c : Context) (j : Journal) :
    FrontMatterChecked c ((frontMatterRule c).result j).1 := by
  rw [result_frontMatterRule]
  cases hrules : c.schema.frontMatter with
  | none =>
    dsimp only
    have hnone : ¬∃ fault, c.FrontMatterRaises fault := by
      rintro ⟨fault, r, v, ⟨rules, f, entries, h, -⟩, -⟩
      rw [hrules] at h
      cases h
    refine ⟨iff_of_true ⟨[], rfl⟩ hnone, fun _ h => (nomatch h), fun vs h v hv => ?_,
      fun r s _ => FieldRule.exists_messages_of_text⟩
    cases h
    cases hv
  | some rules =>
    dsimp only
    refine ⟨?_, fun fault h => frontMatterMessages_failsFor hrules fault (map_eq_error_iff.1 h),
      fun vs h v hv => ?_, fun r s _ => FieldRule.exists_messages_of_text⟩
    · rw [← exists_frontMatterMessages_eq_ok_iff hrules]
      cases frontMatterMessages rules c.document.frontMatter <;> simp [Except.map]
    · cases hmessages : frontMatterMessages rules c.document.frontMatter with
      | error fault =>
        rw [hmessages] at h
        cases h
      | ok messages =>
        rw [hmessages] at h
        cases h
        obtain ⟨m, -, rfl⟩ := List.mem_map.1 hv
        exact ⟨m, rfl⟩

/-! ## An address that stops the rule -/

/-- A schema that asks for the address of a page. -/
def siteSchema : Value :=
  .map [(.str "frontmatter", .map [(.str "fields",
    .list [.map [(.str "name", .str "site"), (.str "format", .str "url")]])])]

/-- A document whose front matter has an address with an open bracket. -/
def openBracket : String := "---\nsite: 'http://[x'\n---\n"

/-- The fault that the rule on front matter ends in, for a text that is read and a schema that is
loaded and bound to it. -/
def frontMatterFault? (text : String) (schema : Value) : Option Fault :=
  match loadSchema schema "", parseDocument text "" with
  | .ok schema, .ok d => match (openContext d schema "").journal.1 with
    | .ok c => failure? ((frontMatterRule c).journal.1)
    | .error _ => none
  | _, _ => none

/-- **An address with an open bracket stops the rule** instead of getting a message. -/
theorem frontMatterRule_openBracket :
    frontMatterFault? openBracket siteSchema = some (.address "Invalid IPv6 URL") := by
  decide +kernel

end Outline

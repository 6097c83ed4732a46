import Outline.Proofs.Rule.Journal

/-!
# Accepted documents

A schema accepts a document if no rule reports a violation. **That is so exactly if every question
can be answered, the structure of the document has no findings, and each of the other rules, on its
own, reports nothing** (`evaluate_eq_nil_iff`).

* `Answerable`: questions of which none is a fault;
* `Placed.Meets`: a node whose section meets the requirements of its element;
* `contextOf`: what the rules use of a document and its schema.
-/

namespace Outline

/-! ## Questions -/

/-- None of the questions is a fault. -/
def Answerable (path : String) (questions : List Question) : Prop :=
  ∀ q ∈ questions, ∃ answer, q.spec.judge path q.heading = .ok answer

theorem Answerable.cons_iff {path : String} {q : Question} {qs : List Question} :
    Answerable path (q :: qs) ↔
      (∃ answer, q.spec.judge path q.heading = .ok answer) ∧ Answerable path qs :=
  List.forall_mem_cons

/-- Texts are compared without a fault. -/
theorem answerable_of_literal {path : String} {questions : List Question}
    (h : ∀ q ∈ questions, ∃ text, q.spec = .literal text) : Answerable path questions := by
  intro q hq
  obtain ⟨text, htext⟩ := h q hq
  exact ⟨_, by rw [htext]; rfl⟩

namespace Matcher

/-- **Questions in a row go well exactly if none of them is a fault.** -/
theorem Faithful.askAll_eq_none_iff {path : String} (questions : List Question) :
    ∀ {m : Matcher}, m.Faithful →
      ((m.askAll path questions).1 = none ↔ Answerable path questions) ∧
        ((m.askAll path questions).1 = none → (m.askAll path questions).2.1.Faithful) := by
  induction questions with
  | nil => intro m h; exact ⟨⟨fun _ _ hq => absurd hq List.not_mem_nil, fun _ => rfl⟩, fun _ => h⟩
  | cons q qs ih =>
    intro m h
    have hanswer := h.answer_ask path q
    rw [Answerable.cons_iff, askAll]
    cases hq : (m.ask path q).answer with
    | error f =>
      refine ⟨⟨fun hnone => absurd hnone (by simp), ?_⟩, fun hnone => absurd hnone (by simp)⟩
      rintro ⟨⟨answer, ha⟩, -⟩
      rw [hanswer, ha] at hq
      cases hq
    | ok answer =>
      rw [hq] at hanswer
      obtain ⟨hiff, hfaithful⟩ := ih (h.ask path q)
      exact ⟨hiff.trans (by simp [← hanswer]), hfaithful⟩

end Matcher

theorem journal_askAll (path : String) (m : Matcher) (questions : List Question) :
    (askAll path m questions).journal.1 =
      match (m.askAll path questions).1 with
      | some f => .error f
      | none => .ok (m.askAll path questions).2.1 := by
  obtain ⟨j, hj⟩ := result_askAll path m questions {}
  exact congrArg Prod.fst hj

/-! ## Contexts -/

/-- The binding of a schema to a document. -/
abbrev bindingOf (d : Document) (schema : Schema) : Binding :=
  bindDocument (HeadingSpec.accepts d.path) d schema.elements

/-- What the rules use of a document and its schema, with a given matcher. -/
def contextOf (d : Document) (schema : Schema) (root : String) (m : Matcher) : Context :=
  ⟨d, schema, root, bindingOf d schema, m, anchors d.allSections⟩

section

variable {d : Document} {schema : Schema} {root : String}

/-- The matcher behind the questions of the binding. -/
def matcherOf (d : Document) (schema : Schema) : Matcher :=
  (Matcher.askAll d.path {} (bindingOf d schema).asked).2.1

theorem faithful_matcherOf (h : Answerable d.path (bindingOf d schema).asked) :
    (matcherOf d schema).Faithful := by
  obtain ⟨hnone, hfaithful⟩ :=
    Matcher.Faithful.askAll_eq_none_iff (bindingOf d schema).asked Matcher.faithful_empty
  exact hfaithful (hnone.2 h)

/-- **What is done with a context ends well exactly if the questions of the binding can be answered
and it does so then.** -/
theorem openContext_bind_ok_iff {α : Type} {r : Context → Run α} (hr : ∀ c, (r c).Steady) {a : α} :
    (openContext d schema root >>= r).journal.1 = .ok a ↔
      Answerable d.path (bindingOf d schema).asked ∧
        (r (contextOf d schema root (matcherOf d schema))).journal.1 = .ok a := by
  have hopen : (openContext d schema root).journal.1 =
      (askAll d.path {} (bindingOf d schema).asked).journal.1 >>= fun m =>
        .ok (contextOf d schema root m) :=
    Run.journal_bind fun _ => (Run.steady_note _ _ _).bind fun _ => Run.steady_pure _
  rw [Run.journal_bind hr, hopen, journal_askAll,
    ← (Matcher.Faithful.askAll_eq_none_iff _ Matcher.faithful_empty).1]
  cases (Matcher.askAll d.path {} (bindingOf d schema).asked).1 with
  | some f => simp [bind, Except.bind]
  | none => simp [bind, Except.bind, matcherOf]

/-- The rule on structure ends exactly if its questions can be answered, with the violations of the
findings. -/
theorem structureRule_ok_iff {m : Matcher} (hm : m.Faithful) {vs : List Violation} :
    (structureRule (contextOf d schema root m)).journal.1 = .ok vs ↔
      Answerable d.path (structureQuestions (HeadingSpec.accepts d.path) (bindingOf d schema) d
        schema.elements) ∧
      (structureFindings (HeadingSpec.accepts d.path) (bindingOf d schema) d
        schema.elements).mapM Finding.violation = .ok vs := by
  have hjournal : (structureRule (contextOf d schema root m)).journal.1 =
      (askAll d.path m (structureQuestions (HeadingSpec.accepts d.path) (bindingOf d schema) d
        schema.elements)).journal.1 >>= fun _ =>
      (structureFindings (HeadingSpec.accepts d.path) (bindingOf d schema) d
        schema.elements).mapM Finding.violation := by
    refine (Run.journal_bind fun _ => Run.steady_lift _).trans ?_
    simp only [Run.journal_lift]
    rfl
  rw [hjournal, journal_askAll, ← (hm.askAll_eq_none_iff _).1]
  cases (m.askAll d.path (structureQuestions (HeadingSpec.accepts d.path) (bindingOf d schema) d
    schema.elements)).1 with
  | some f => simp [bind, Except.bind]
  | none => simp [bind, Except.bind]

/-- **The structure of a document is reported exactly if all questions about it can be
answered.** -/
theorem structureRun_ok_iff {vs : List Violation} :
    (Run.journal do structureRule (← openContext d schema root)).1 = .ok vs ↔
      Answerable d.path (bindingOf d schema).asked ∧
      Answerable d.path (structureQuestions (HeadingSpec.accepts d.path) (bindingOf d schema) d
        schema.elements) ∧
      (structureFindings (HeadingSpec.accepts d.path) (bindingOf d schema) d
        schema.elements).mapM Finding.violation = .ok vs := by
  rw [openContext_bind_ok_iff fun _ => steady_structureRule]
  exact and_congr_right fun hasked => structureRule_ok_iff (faithful_matcherOf hasked)

/-! ## Requirements on sections -/

theorem flatten_eq_nil_of_mapM {α : Type} {f : α → Except Fault (List Violation)} {l : List α} :
    (∃ found, l.mapM f = .ok found ∧ found.flatten = []) ↔ ∀ a ∈ l, f a = .ok [] := by
  induction l with
  | nil => exact ⟨fun _ _ h => absurd h List.not_mem_nil, fun _ => ⟨[], rfl, rfl⟩⟩
  | cons a l ih =>
    rw [List.forall_mem_cons, ← ih, List.mapM_cons]
    constructor
    · rintro ⟨found, hfound, hnil⟩
      cases ha : f a with
      | error e => rw [ha] at hfound; cases hfound
      | ok vs =>
        cases hl : l.mapM f with
        | error e => rw [ha, hl] at hfound; cases hfound
        | ok rest =>
          rw [ha, hl] at hfound
          obtain rfl : vs :: rest = found := Except.ok.inj hfound
          rw [List.flatten_cons, List.append_eq_nil_iff] at hnil
          exact ⟨congrArg _ hnil.1, rest, rfl, hnil.2⟩
    · rintro ⟨ha, rest, hl, hnil⟩
      exact ⟨[] :: rest, by rw [ha, hl]; rfl, hnil⟩

theorem filterM_eq_ok_nil_iff {α : Type} {f : α → Except Fault Bool} {l : List α} :
    l.filterM f = .ok [] ↔ ∀ a ∈ l, f a = .ok false := by
  have haux : ∀ kept, l.filterAuxM f kept = .ok [] ↔ kept = [] ∧ ∀ a ∈ l, f a = .ok false := by
    induction l with
    | nil => intro kept; simp [List.filterAuxM, pure, Except.pure]
    | cons a l ih =>
      intro kept
      rw [List.forall_mem_cons, List.filterAuxM]
      cases f a with
      | error e => simp [bind, Except.bind]
      | ok kept' => cases kept' <;> simp [bind, Except.bind, ih]
  rw [List.filterM, ← (haux []).trans (and_iff_right rfl)]
  cases l.filterAuxM f [] <;> simp [bind, Except.bind, pure, Except.pure]

section

variable {c : Context}

/-- Bound nodes are in order exactly if each of them is. -/
theorem onBoundNodes_eq_nil_iff {check : Placed → Run (List Violation)}
    (h : ∀ p, (check p).Steady) : (onBoundNodes c check).journal.1 = .ok [] ↔
      ∀ p ∈ c.binding.boundNodes, (check p).journal.1 = .ok [] := by
  rw [← flatten_eq_nil_of_mapM, onBoundNodes, Run.journal_bind fun _ => Run.steady_pure _,
    Run.journal_mapM h]
  cases c.binding.boundNodes.mapM fun p => (check p).journal.1 <;> simp [bind, Except.bind]

/-- **Requirements of one kind are met exactly if each of them is.** -/
theorem onRequirements_eq_nil_iff {α : Type} {requirements : SectionRules → List α}
    {check : Placed → α → Except Fault (List Violation)} :
    (onRequirements c requirements check).journal.1 = .ok [] ↔
      ∀ p ∈ c.binding.boundNodes, ∀ r ∈ requirements p.node.element.rules, check p r = .ok [] := by
  refine (onBoundNodes_eq_nil_iff fun p => (Run.steady_lift _).bind fun _ =>
    Run.steady_pure _).trans (forall₂_congr fun p _ => ?_)
  rw [← flatten_eq_nil_of_mapM, Run.journal_bind fun _ => Run.steady_pure _, Run.journal_lift]
  cases (requirements p.node.element.rules).mapM (check p) <;> simp [bind, Except.bind]

/-- What becomes of a text pattern, whatever is noted about it. -/
theorem journal_contentContains (content : String) (p : TextPattern) :
    (contentContains content p).journal.1 = (p.occursIn content).map Prod.fst := by
  rw [contentContains, Run.journal_bind, Run.journal_lift]
  · rcases p.occursIn content with f | ⟨found, _ | _⟩ <;> rfl
  · rintro ⟨found, _ | _⟩
    · exact Run.steady_pure found
    · exact (Run.steady_note _ _ _).bind fun _ => Run.steady_pure found

/-- Nothing is reported about the members of a list exactly if the test holds of none. -/
theorem reported_eq_nil_iff {α : Type} {test : α → Run Bool} (h : ∀ a, (test a).Steady)
    (report : α → Violation) (l : List α) :
    (do return (← l.filterM test).map report : Run (List Violation)).journal.1 = .ok [] ↔
      ∀ a ∈ l, (test a).journal.1 = .ok false := by
  rw [← filterM_eq_ok_nil_iff, Run.journal_bind fun _ => Run.steady_pure _, Run.journal_filterM h]
  cases l.filterM fun a => (test a).journal.1 <;> simp [bind, Except.bind]

/-- **Required texts are in order exactly if each of them is found.** -/
theorem requiredTextRule_eq_nil_iff : (requiredTextRule c).journal.1 = .ok [] ↔
    ∀ p ∈ c.binding.boundNodes, ∀ t ∈ p.node.element.rules.requiredText,
      (t.occursIn p.node.content).map Prod.fst = .ok true := by
  have hsteady : ∀ (p : Placed) (t : TextPattern),
      (do return !(← contentContains p.node.content t) : Run Bool).Steady := fun _ _ =>
    (steady_contentContains _ _).bind fun _ => Run.steady_pure _
  refine (onBoundNodes_eq_nil_iff fun p => (Run.steady_filterM (hsteady p) _).bind fun _ =>
    Run.steady_pure _).trans (forall₂_congr fun p _ => ?_)
  refine (reported_eq_nil_iff (hsteady p) _ _).trans (forall₂_congr fun t _ => ?_)
  rw [Run.journal_bind fun _ => Run.steady_pure _, journal_contentContains]
  cases (t.occursIn p.node.content).map Prod.fst <;> simp [bind, Except.bind]

/-- **Forbidden texts are in order exactly if none of them is found.** -/
theorem forbiddenTextRule_eq_nil_iff : (forbiddenTextRule c).journal.1 = .ok [] ↔
    ∀ p ∈ c.binding.boundNodes, ∀ t ∈ p.node.element.rules.forbiddenText,
      (t.occursIn p.node.content).map Prod.fst = .ok false := by
  refine (onBoundNodes_eq_nil_iff fun p => (Run.steady_filterM (fun _ =>
    steady_contentContains _ _) _).bind fun _ => Run.steady_pure _).trans
    (forall₂_congr fun p _ => ?_)
  refine (reported_eq_nil_iff (fun _ => steady_contentContains _ _) _ _).trans
    (forall₂_congr fun t _ => ?_)
  rw [journal_contentContains]

end

/-! ## All rules -/

/-- No other rule asks the matcher. -/
theorem Rule.check_matcher (around : Surroundings) {r : Rule} (hr : r ≠ .sections)
    (m m' : Matcher) :
    r.check around (contextOf d schema root m) = r.check around (contextOf d schema root m') := by
  cases r with
  | sections => exact absurd rfl hr
  | _ => rfl

/-- All rules report nothing exactly if each of them does. -/
theorem checkRules_eq_nil_iff (around : Surroundings) (c : Context) :
    (((Rule.all.mapM (checkRule around c)) >>= fun found =>
      pure (found.flatten.map (·.withPath d.path)) : Run (List Violation)).journal.1 = .ok []) ↔
        ∀ r : Rule, (r.check around c).journal.1 = .ok [] := by
  have hall : (∀ r : Rule, (r.check around c).journal.1 = .ok []) ↔
      ∀ r ∈ Rule.all, (r.check around c).journal.1 = .ok [] :=
    ⟨fun h r _ => h r, fun h r => h r (by cases r <;> decide)⟩
  rw [hall, ← flatten_eq_nil_of_mapM, Run.journal_bind fun _ => Run.steady_pure _,
    Run.journal_mapM (steady_checkRule around), funext (journal_checkRule around)]
  cases Rule.all.mapM fun r => (r.check around c).journal.1 with
  | error e => simp [bind, Except.bind]
  | ok found => simp [bind, Except.bind]

/-- **A schema accepts a document exactly if all questions can be answered, the structure has no
findings, and no other rule reports a violation.** -/
theorem evaluate_eq_nil_iff (around : Surroundings) :
    (evaluate around schema root d).journal.1 = .ok [] ↔
      Answerable d.path (bindingOf d schema).asked ∧
      Answerable d.path (structureQuestions (HeadingSpec.accepts d.path) (bindingOf d schema) d
        schema.elements) ∧
      structureFindings (HeadingSpec.accepts d.path) (bindingOf d schema) d schema.elements = [] ∧
      ∀ r, r ≠ Rule.sections →
        (r.check around (contextOf d schema root {})).journal.1 = .ok [] := by
  have hsteady : ∀ c, (Rule.all.mapM (checkRule around c) >>= fun found =>
      pure (found.flatten.map (·.withPath d.path)) : Run (List Violation)).Steady := fun c =>
    (Run.steady_mapM (steady_checkRule around) _).bind fun _ => Run.steady_pure _
  have hfindings : ∀ {findings : List Finding},
      findings.mapM Finding.violation = .ok [] ↔ findings = [] :=
    ⟨mapM_eq_ok_nil, fun h => h ▸ rfl⟩
  refine (openContext_bind_ok_iff hsteady).trans (and_congr_right fun hasked => ?_)
  have hstructure : (structureRule (contextOf d schema root (matcherOf d schema))).journal.1 =
      .ok [] ↔ _ := structureRule_ok_iff (faithful_matcherOf hasked)
  rw [checkRules_eq_nil_iff, ← and_assoc, ← hfindings, ← hstructure]
  constructor
  · intro hall
    refine ⟨hall .sections, fun r hr => ?_⟩
    rw [Rule.check_matcher around hr {}]
    exact hall r
  · rintro ⟨hsections, hothers⟩ r
    by_cases hr : r = .sections
    · rw [hr]
      exact hsections
    · rw [Rule.check_matcher around hr _ {}]
      exact hothers r hr

/-! ## Schemas without requirements on documents -/

/-- **A node whose section meets the requirements of its element.** -/
structure Placed.Meets (p : Placed) : Prop where
  requiredText : ∀ t ∈ p.node.element.rules.requiredText,
    (t.occursIn p.node.content).map Prod.fst = .ok true
  forbiddenText : ∀ t ∈ p.node.element.rules.forbiddenText,
    (t.occursIn p.node.content).map Prod.fst = .ok false
  codeBlocks : ∀ r ∈ p.node.element.rules.codeBlocks, checkCodeBlocks p r = .ok []
  images : ∀ r ∈ p.node.element.rules.images, checkImages p r = .ok []
  tables : ∀ r ∈ p.node.element.rules.tables, checkTables p r = .ok []
  lists : ∀ r ∈ p.node.element.rules.lists, checkLists p r = .ok []
  wordCount : ∀ r ∈ p.node.element.rules.wordCount.toList, checkWordCount p r = .ok []

/-- A schema that asks nothing of documents as a whole. -/
structure Schema.Local (schema : Schema) : Prop where
  links : schema.links = none
  headings : schema.headings = none
  frontMatter : schema.frontMatter = none

/-- The rules other than the one on structure report nothing exactly if the nodes with a section
meet their requirements. -/
theorem Schema.Local.check_iff (h : schema.Local) (around : Surroundings) {m : Matcher} :
    (∀ r, r ≠ Rule.sections → (r.check around (contextOf d schema root m)).journal.1 = .ok []) ↔
      ∀ p ∈ (bindingOf d schema).boundNodes, p.Meets := by
  constructor
  · intro hall p hp
    exact ⟨requiredTextRule_eq_nil_iff.1 (hall .requiredText (by decide)) p hp,
      forbiddenTextRule_eq_nil_iff.1 (hall .forbiddenText (by decide)) p hp,
      onRequirements_eq_nil_iff.1 (hall .codeBlock (by decide)) p hp,
      onRequirements_eq_nil_iff.1 (hall .image (by decide)) p hp,
      onRequirements_eq_nil_iff.1 (hall .table (by decide)) p hp,
      onRequirements_eq_nil_iff.1 (hall .list (by decide)) p hp,
      onRequirements_eq_nil_iff.1 (hall .wordCount (by decide)) p hp⟩
  · intro hall r hr
    cases r with
    | sections => exact absurd rfl hr
    | requiredText => exact requiredTextRule_eq_nil_iff.2 fun p hp => (hall p hp).requiredText
    | forbiddenText => exact forbiddenTextRule_eq_nil_iff.2 fun p hp => (hall p hp).forbiddenText
    | codeBlock => exact onRequirements_eq_nil_iff.2 fun p hp => (hall p hp).codeBlocks
    | image => exact onRequirements_eq_nil_iff.2 fun p hp => (hall p hp).images
    | table => exact onRequirements_eq_nil_iff.2 fun p hp => (hall p hp).tables
    | list => exact onRequirements_eq_nil_iff.2 fun p hp => (hall p hp).lists
    | wordCount => exact onRequirements_eq_nil_iff.2 fun p hp => (hall p hp).wordCount
    | heading => simp only [Rule.check, headingRule, contextOf, h.headings]; rfl
    | link => simp only [Rule.check, linkRule, contextOf, h.links]; rfl
    | frontMatter => simp only [Rule.check, frontMatterRule, contextOf, h.frontMatter]; rfl

/-- **A schema that asks nothing of documents as a whole accepts a document exactly if all questions
can be answered, the structure has no findings, and the sections meet their requirements.** -/
theorem evaluate_local_eq_nil_iff (h : schema.Local) (around : Surroundings) :
    (evaluate around schema root d).journal.1 = .ok [] ↔
      Answerable d.path (bindingOf d schema).asked ∧
      Answerable d.path (structureQuestions (HeadingSpec.accepts d.path) (bindingOf d schema) d
        schema.elements) ∧
      structureFindings (HeadingSpec.accepts d.path) (bindingOf d schema) d schema.elements = [] ∧
      ∀ p ∈ (bindingOf d schema).boundNodes, p.Meets := by
  rw [evaluate_eq_nil_iff, h.check_iff]

end

end Outline

import Outline.Proofs.Document.Places
import Outline.Proofs.Rule.FrontMatter
import Outline.Proofs.Rule.Journal
import Outline.Proofs.Rule.Levels
import Outline.Proofs.Structure.Unexpected
import Outline.Proofs.Structure.Verdict

/-!
# Places of violations

A violation is reported at a heading, at an element of a section, or at the start of the document; a
node without a section borrows the place of the nearest node around it that has one. **Hence every
violation points into the text of the document** (`violations_inLines`), as its parts do.

* `Violation.At`, `AllAt`: violations at places with a property;
* `Context.At`: a context for a document with such places;
* `Context.At.check`: all rules report violations at such places.
-/

namespace Outline

variable {P : Nat × Nat → Prop}

/-- **A violation at a place with a property.** -/
def Violation.At (P : Nat × Nat → Prop) (v : Violation) : Prop :=
  ∃ place : Nat × Nat, P place ∧ v.line = place.1 ∧ v.column = place.2

/-- Violations that are all at places with a property. -/
def AllAt (P : Nat × Nat → Prop) (vs : List Violation) : Prop := ∀ v ∈ vs, v.At P

theorem at_reported {place : Nat × Nat} (h : P place) (rule message : String) :
    (reported rule message place).At P :=
  ⟨place, h, rfl, rfl⟩

namespace AllAt

theorem nil : AllAt P [] := List.forall_mem_nil _

theorem append {vs ws : List Violation} (hv : AllAt P vs) (hw : AllAt P ws) : AllAt P (vs ++ ws) :=
  List.forall_mem_append.2 ⟨hv, hw⟩

theorem map {α : Type} {f : α → Violation} {l : List α} (h : ∀ a ∈ l, (f a).At P) :
    AllAt P (l.map f) :=
  List.forall_mem_map.2 h

theorem flatten {found : List (List Violation)} (h : ∀ vs ∈ found, AllAt P vs) :
    AllAt P found.flatten := by
  intro v hv
  obtain ⟨vs, hvs, hv⟩ := List.mem_flatten.1 hv
  exact h vs hvs v hv

end AllAt

/-! ## Contexts -/

/-- **A context for a document whose places have a property**, as the start of the document does. -/
structure Context.At (P : Nat × Nat → Prop) (c : Context) : Prop where
  start : P (1, 1)
  document : c.document.At P
  regular : Regular c.document.sections
  binding : c.binding = bindDocument c.accepts c.document c.schema.elements

namespace Context.At

variable {c : Context}

theorem bound_mem (h : c.At P) {p : Placed} (hp : p ∈ c.binding.nodes) {s : Section}
    (hs : p.node.boundTo? = some s) : s ∈ c.document.allSections := by
  rw [h.binding] at hp
  exact mem_allSections_of_mem_nodes c.accepts h.regular hp hs

/-- The nodes around a node have sections of the document too. -/
theorem bound_mem_around (h : c.At P) {p : Placed} (hp : p ∈ c.binding.nodes) {n : Node}
    (hn : n ∈ p.node :: p.ancestors) {s : Section} (hs : n.boundTo? = some s) :
    s ∈ c.document.allSections := by
  have hmem : n ∈ c.binding.nodes.map Placed.node := by
    rw [Binding.nodes, map_node_walkNodes]
    rcases List.mem_cons.1 hn with rfl | hn
    · exact node_mem_allNodes hp
    · exact (mem_allNodes_of_ancestor hp n hn).resolve_right List.not_mem_nil
  obtain ⟨q, hq, rfl⟩ := List.mem_map.1 hmem
  exact h.bound_mem hq hs

/-- **What is said about a node is said at a heading or at the start of the document.** -/
theorem location (h : c.At P) {p : Placed} (hp : p ∈ c.binding.nodes) : P p.location := by
  unfold Placed.location
  split
  · rename_i heading hheading
    obtain ⟨n, hn, hbound⟩ := List.exists_of_findSome?_eq_some hheading
    obtain ⟨s, hs, rfl⟩ := Option.map_eq_some_iff.1 hbound
    exact (h.document.sections s (h.bound_mem_around hp hn hs)).heading
  · exact h.start

theorem elements (h : c.At P) {p : Placed} (hp : p ∈ c.binding.nodes) : p.node.elements.At P := by
  unfold Node.elements
  split
  · rename_i s hs
    exact (h.document.sections s (h.bound_mem hp hs)).elements
  · exact Elements.at_empty P

theorem headings (h : c.At P) : ∀ g ∈ c.document.headings, P (g.line, g.column) :=
  List.forall_mem_map.2 fun s hs => (h.document.sections s hs).heading

theorem links (h : c.At P) : ∀ l ∈ c.document.links, P (l.line, l.column) := by
  refine List.forall_mem_append.2 ⟨h.document.preamble.links, fun l hl => ?_⟩
  obtain ⟨s, hs, hl⟩ := List.mem_flatMap.1 hl
  exact (h.document.sections s hs).elements.links l hl

/-! ## The rule on structure -/

/-- The sections of a scope are sections of the document. -/
theorem scope_mem (h : c.At P) : ∀ scope ∈ c.binding.scopes c.document,
    ∀ s ∈ scope.sections, s ∈ c.document.allSections := by
  intro scope hscope
  rcases (mem_scopes c.binding).1 hscope with rfl | ⟨p, hp, s, hs, rfl⟩
  · exact fun s hs => (sublist_walkAll _).subset hs
  · exact fun t ht => mem_walkAll_children (h.bound_mem hp hs) ht

end Context.At

theorem found_of_firstPair {parent : String} {expected : List Element} {sections : List Section}
    {pair : FirstPair} (h : firstPair? parent expected sections = some pair) :
    ∃ s ∈ sections, pair.found = s.heading := by
  unfold firstPair? at h
  split at h
  · split_ifs at h
    cases h
    exact ⟨_, List.mem_cons_self, rfl⟩
  · cases h

/-- The first sections of scopes are found in them. -/
theorem found_of_mem_firstPairs {b : Binding} {d : Document} {elements : List Element}
    {pair : FirstPair} (h : pair ∈ firstPairs b d elements) :
    ∃ scope ∈ b.scopes d, ∃ s ∈ scope.sections, pair.found = s.heading := by
  rcases List.mem_append.1 h with h | h
  · exact ⟨_, (mem_scopes b).2 (.inl rfl), found_of_firstPair (Option.mem_toList.1 h)⟩
  · obtain ⟨p, hp, hpair⟩ := List.mem_filterMap.1 h
    obtain ⟨s, hs, hpair⟩ := Option.bind_eq_some_iff.1 hpair
    exact ⟨_, (mem_scopes b).2 (.inr ⟨p, hp, s, hs, rfl⟩), found_of_firstPair hpair⟩

namespace Context.At

variable {c : Context}

/-- **What is wrong with the structure is found at such places**, in each of the five passes. -/
theorem place_structureFindings (h : c.At P) : ∀ f ∈
    structureFindings c.accepts c.binding c.document c.schema.elements, P f.place := by
  simp only [structureFindings, wrongFirsts, unexpectedSections, missingElements,
    misplacedSections, tooFewSections, List.forall_mem_append, List.forall_mem_map]
  -- the passes in their order; the third and the last point to where their nodes do
  refine ⟨⟨⟨⟨fun pair hpair => ?_, fun p hp => ?_⟩, fun p hp => ?_⟩, fun m hm => ?_⟩, fun p hp => ?_⟩
  · obtain ⟨scope, hscope, s, hs, hfound⟩ := found_of_mem_firstPairs (List.mem_filter.1 hpair).1
    rw [Finding.place, hfound]
    exact (h.document.sections s (h.scope_mem scope hscope s hs)).heading
  · have hself := (mem_allSections_of_mem_placedSections (List.mem_filter.1 hp).1).1
    exact (h.document.sections p.self hself).heading
  · exact h.location (List.mem_filter.1 (List.mem_filter.1 hp).1).1
  · have hscopes := h.scope_mem
    rw [h.binding] at hm hscopes
    rw [found_searchMisplaced h.regular] at hm
    obtain ⟨scope, hscope, hm⟩ := List.mem_flatMap.1 hm
    have hfound := hscopes scope hscope m.found (Scope.mem_misplaced hm).2
    exact (h.document.sections m.found hfound).heading
  · exact h.location (List.mem_filter.1 (List.mem_filter.1 hp).1).1

theorem structureRule (h : c.At P) : Run.Gives (AllAt P) (structureRule c) := by
  refine .andThen fun _ => .lift (.mapM fun f hf => .andThen fun message => .ok ?_)
  exact ⟨f.place, h.place_structureFindings f hf, rfl, rfl⟩

/-! ## Rules on sections -/

theorem onBoundNodes (h : c.At P) {check : Placed → Run (List Violation)}
    (hcheck : ∀ p, P p.location → p.node.elements.At P → Run.Gives (AllAt P) (check p)) :
    Run.Gives (AllAt P) (onBoundNodes c check) := by
  refine (Run.Gives.mapM fun p hp => ?_).bind fun found hfound => .pure (.flatten hfound)
  have hnode := (List.mem_filter.1 hp).1
  exact hcheck p (h.location hnode) (h.elements hnode)

theorem onRequirements (h : c.At P) {α : Type} {requirements : SectionRules → List α}
    {check : Placed → α → Except Fault (List Violation)}
    (hcheck : ∀ p r, P p.location → p.node.elements.At P → Gives (AllAt P) (check p r)) :
    Run.Gives (AllAt P) (onRequirements c requirements check) := by
  refine h.onBoundNodes fun p hplace helements => ?_
  exact (Run.Gives.lift (.mapM fun r _ => hcheck p r hplace helements)).bind fun found hfound =>
    .pure (.flatten hfound)

end Context.At

section

variable {p : Placed}

theorem allAt_atHeading (h : P p.location) (rule : String) (messages : List String) :
    AllAt P (atHeading rule p messages) :=
  .map fun m _ => at_reported h rule m

theorem gives_checkCodeBlocks (h : P p.location) (r : CodeBlockRule) :
    Gives (AllAt P) (checkCodeBlocks p r) :=
  .andThen fun messages => .ok (allAt_atHeading h _ messages)

theorem gives_checkImages (h : P p.location) (helements : p.node.elements.At P) (r : ImageRule) :
    Gives (AllAt P) (checkImages p r) := by
  refine .andThen fun messages => .ok ((allAt_atHeading h _ messages).append (.map fun i hi => ?_))
  exact at_reported (helements.images i (List.mem_filter.1 hi).1) _ _

theorem gives_checkTable (r : TableRule) {t : Table} (h : P (t.line, t.column)) :
    Gives (AllAt P) (checkTable p r t) := by
  have hall (messages : List String) : AllAt P (messages.map fun m =>
      reported "table" m (t.line, t.column)) := .map fun m _ => at_reported h _ m
  unfold checkTable
  dsimp only
  split
  · exact .andThen fun _ => .andThen fun _ => .ok (hall _)
  · exact .andThen fun _ => .ok (hall _)

theorem gives_checkTables (h : P p.location) (helements : p.node.elements.At P) (r : TableRule) :
    Gives (AllAt P) (checkTables p r) := by
  refine .andThen fun messages => ?_
  refine (Gives.mapM fun t ht => gives_checkTable r (helements.tables t ht)).bind fun found hfound =>
    .ok ((allAt_atHeading h _ messages).append (.flatten hfound))

theorem gives_checkItems (r : ListRule) {l : ItemList} (h : P (l.line, l.column)) :
    Gives (AllAt P) (checkItems p r l) := by
  unfold checkItems
  split
  · exact .andThen fun _ => .ok (List.forall_mem_singleton.2 (at_reported h _ _))
  · exact .ok .nil

theorem gives_checkLists (h : P p.location) (helements : p.node.elements.At P) (r : ListRule) :
    Gives (AllAt P) (checkLists p r) := by
  refine .andThen fun messages => ?_
  refine (Gives.mapM fun l hl => gives_checkItems r ?_).bind fun found hfound =>
    .ok ((allAt_atHeading h _ messages).append (.flatten hfound))
  exact helements.lists l (List.mem_filter.1 hl).1

theorem gives_checkWordCount (h : P p.location) (bounds : Bounds) :
    Gives (AllAt P) (checkWordCount p bounds) :=
  .andThen fun messages => .ok (allAt_atHeading h _ messages)

end

/-! ## The rule on headings -/

section

variable {headings : List Heading} (h : ∀ g ∈ headings, P (g.line, g.column))

include h

theorem allAt_checkSkips : AllAt P (checkSkips headings) := by
  refine .map fun ⟨before, g⟩ hg => at_reported (h g ?_) _ _
  exact List.mem_of_mem_drop (List.of_mem_zip (List.mem_filter.1 hg).1).2

omit h in
theorem mem_of_mem_repeatsAfter {κ : Type} [BEq κ] {key : Heading → κ} {pair : Heading × Heading} :
    ∀ {seen : List Heading}, pair ∈ repeatsAfter key seen headings → pair.2 ∈ headings := by
  induction headings with
  | nil => exact fun hpair => absurd hpair List.not_mem_nil
  | cons g gs ih =>
    intro seen hpair
    unfold repeatsAfter at hpair
    split at hpair
    · rcases List.mem_cons.1 hpair with rfl | hpair
      · exact List.mem_cons_self
      · exact List.mem_cons_of_mem _ (ih hpair)
    · exact List.mem_cons_of_mem _ (ih hpair)

theorem allAt_repeats {κ : Type} [BEq κ] (key : Heading → κ) (message : Heading × Heading → String) :
    AllAt P ((repeats key headings).map fun pair => atHeadingLine pair.2 (message pair)) :=
  .map fun pair hpair => at_reported (h pair.2 (mem_of_mem_repeatsAfter hpair)) _ _

theorem gives_checkDepth (most : Amount) : Gives (AllAt P) (checkDepth headings most) := by
  refine .mapM fun g hg => .andThen fun _ => .ok (at_reported (h g ?_) _ _)
  exact (List.mem_filter.1 hg).1

theorem gives_checkHeadings (r : HeadingRules) : Gives (AllAt P) (checkHeadings headings r) := by
  have hif (b : Bool) {vs : List Violation} (hvs : AllAt P vs) : AllAt P (if b then vs else []) := by
    cases b
    · exact .nil
    · exact hvs
  refine (gives_checkDepth h r.maxDepth).bind fun deep hdeep => .ok ?_
  exact (((hif _ (allAt_checkSkips h)).append (hif _ (allAt_repeats h _ _))).append
    (hif _ (allAt_repeats h _ _))).append hdeep

end

/-! ## All rules -/

namespace Context.At

variable {c : Context}

theorem headingRule (h : c.At P) : Run.Gives (AllAt P) (headingRule c) := by
  unfold Outline.headingRule
  split
  · exact .lift (gives_checkHeadings h.headings _)
  · exact .pure .nil

theorem linkRule (h : c.At P) (around : Surroundings) : Run.Gives (AllAt P) (linkRule around c) := by
  unfold Outline.linkRule
  split
  · rename_i r _
    have hlink : ∀ l ∈ c.document.links, Run.Gives (fun found : Option Violation =>
        ∀ v ∈ found, v.At P) (checkLink (networkFor none around r) around r c l) := by
      refine fun l hl => .andThen fun message => .pure fun v hv => ?_
      obtain ⟨m, -, rfl⟩ := Option.map_eq_some_iff.1 hv
      exact at_reported (h.links l hl) _ m
    refine (Run.Gives.mapM hlink).bind fun found hfound => .pure fun v hv => ?_
    obtain ⟨v?, hv?, hv⟩ := List.mem_filterMap.1 hv
    exact hfound v? hv? v hv
  · exact .pure .nil

theorem frontMatterRule (h : c.At P) : Run.Gives (AllAt P) (frontMatterRule c) := by
  unfold Outline.frontMatterRule
  split
  · exact .andThen fun messages => .pure (.map fun m _ => at_reported h.start _ m)
  · exact .pure .nil

/-- **All rules report violations at such places.** -/
theorem check (h : c.At P) (around : Surroundings) (r : Rule) :
    Run.Gives (AllAt P) (r.check around c) := by
  cases r with
  | sections => exact h.structureRule
  | requiredText | forbiddenText =>
    exact h.onBoundNodes fun p hplace _ => .andThen fun found =>
      .pure (.map fun pattern _ => at_reported hplace _ _)
  | codeBlock => exact h.onRequirements fun p r hplace _ => gives_checkCodeBlocks hplace r
  | image => exact h.onRequirements fun p r hplace helements => gives_checkImages hplace helements r
  | table => exact h.onRequirements fun p r hplace helements => gives_checkTables hplace helements r
  | list => exact h.onRequirements fun p r hplace helements => gives_checkLists hplace helements r
  | wordCount => exact h.onRequirements fun p r hplace _ => gives_checkWordCount hplace r
  | heading => exact h.headingRule
  | link => exact h.linkRule around
  | frontMatter => exact h.frontMatterRule

end Context.At

/-! ## Documents -/

/-- The first character of a text is in its lines, even if the text is empty. -/
theorem inLines_start (text : String) : InLines (cutOn '\n' text.toList) (1, 1) := by
  refine ⟨Nat.le_refl 1, ?_, Nat.le_refl 1, Nat.succ_le_succ (Nat.zero_le _)⟩
  rw [cutOn, length_cut]
  exact Nat.succ_pos _

section

variable {text path : String} {d : Document} (h : parseDocument text path = .ok d)
  (hreturn : '\r' ∉ text.toList) (schema : Schema) (root : String)

include h hreturn

/-- The context of a document that was read has its places in the text. -/
theorem gives_openContext :
    Run.Gives (Context.At (InLines (cutOn '\n' text.toList))) (openContext d schema root) := by
  intro j c hc
  obtain ⟨rfl, rfl, hbinding⟩ := openContext_eq_ok (Prod.ext hc rfl)
  exact ⟨inLines_start text, at_parseDocument h hreturn, regular_of_parseDocument h, hbinding⟩

/-- **Every violation points into the text of the document**: those that a rule reports, unless it
ends in a fault, and those of all rules together. -/
theorem violations_inLines (around : Surroundings) :
    Run.Gives (fun c => ∀ r : Rule,
      Run.Gives (AllAt (InLines (cutOn '\n' text.toList))) (r.check around c))
        (openContext d schema root) ∧
      Run.Gives (AllAt (InLines (cutOn '\n' text.toList))) (evaluate around schema root d) := by
  have hopen := gives_openContext h hreturn schema root
  refine ⟨fun j c hc r => (hopen j c hc).check around r, hopen.bind fun c hc => ?_⟩
  have hrule (r : Rule) :
      Run.Gives (AllAt (InLines (cutOn '\n' text.toList))) (checkRule around c r) := by
    refine (hc.check around r).bind fun found hfound => ?_
    dsimp only
    split
    · exact .andThen fun _ => .pure hfound
    · exact .pure hfound
  refine (Run.Gives.mapM fun r _ => hrule r).bind fun found hfound => .pure ?_
  exact List.forall_mem_map.2 fun v hv => AllAt.flatten hfound v hv

end

/-- A schema with a heading that is missing below the one of the first level. -/
def skippingSchema : Schema :=
  { elements :=
      [{ heading := .literal "### A" },
        { heading := .literal "# B", children := [{ heading := .literal "## D" }] }]
    headings := some { noSkipLevels := true } }

/-- The missing heading is reported at the heading that it should stand below. -/
theorem violations_inLines_skipping :
    parseDocument "### A\n# B\n### C\n" "" = .ok skippingDocument ∧
      '\r' ∉ "### A\n# B\n### C\n".toList ∧ ∀ around : Surroundings, ∃ vs,
        (evaluate around skippingSchema "" skippingDocument).journal.1 = .ok vs ∧
        vs.map (fun v => (v.line, v.column)) = [(3, 5), (3, 5), (2, 3), (3, 5)] ∧
        AllAt (InLines (cutOn '\n' "### A\n# B\n### C\n".toList)) vs := by
  have hreturn : '\r' ∉ "### A\n# B\n### C\n".toList := by decide
  refine ⟨parseDocument_skipping, hreturn, fun around => ⟨_, rfl, rfl, ?_⟩⟩
  exact (violations_inLines parseDocument_skipping hreturn skippingSchema "" around).2 {} _ rfl

end Outline

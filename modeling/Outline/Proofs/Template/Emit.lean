import Outline.Proofs.Schema.Writable
import Outline.Proofs.Template.Fill

/-!
# What a template holds

**A schema that loads has a template unless a number of placeholders is written with a point**, or
the first choice of a field cannot be written (`template_of_loadSchema`). The template then holds
the pieces for each element, in order and with those below it, and as many placeholders for each
requirement as it asks for at least. It ends with a line break.

* `SectionRules.Countable`: requirements whose numbers of placeholders are written without a point;
* `Schema.HasTemplate`: what a schema that loads needs for a template;
* `Writes`: pieces that can be written under a condition, and their placeholders;
* `partsOfAll_eq`: the pieces for elements are those for each one in a row;
* `TemplateFor`: what the template of a schema holds.
-/

namespace Outline

/-! ## Numbers of placeholders -/

/-- A requirement on tables whose numbers are written without a point. The number of columns is not
counted with if more are named. -/
structure TableRule.Countable (t : TableRule) : Prop where
  min : t.bounds.min.written = none
  columns : t.minColumns.value < t.named ∨ t.minColumns.written = none

/-- A requirement on lists whose numbers are written without a point. The number of items is counted
with only if there is a list. -/
structure ListRule.Countable (l : ListRule) : Prop where
  min : l.bounds.min.written = none
  items : l.bounds.min.value = 0 ∨ l.minItems.value = 0 ∨ l.minItems.written = none

/-- **Requirements whose numbers of placeholders are written without a point.** -/
structure SectionRules.Countable (r : SectionRules) : Prop where
  codeBlocks : ∀ c ∈ r.codeBlocks, c.bounds.min.written = none
  images : ∀ i ∈ r.images, i.bounds.min.written = none
  tables : ∀ t ∈ r.tables, t.Countable
  lists : ∀ l ∈ r.lists, l.Countable

section

variable {a : Amount} {b : Bounds}

theorem Amount.turns_eq_error (h : a.written ≠ none) : a.turns = .error .wrongKind := by
  unfold turns
  split
  · exact absurd ‹_› h
  · rfl

theorem Bounds.placeholders_eq_error (h : b.min.written ≠ none) (p : Placeholder) :
    b.placeholders p = .error .wrongKind := by
  rw [placeholders, Amount.turns_eq_error h]
  rfl

end

/-! ## Pieces -/

/-- Pieces that end with an empty line, if there are any. -/
def EndsInGap (ps : List TemplatePart) : Prop :=
  ∀ q ∈ ps.getLast?, q = .gap ∨ ∃ p, q = .placeholder p

/-- **Pieces with these placeholders**, which end with an empty line, and whether there are none. -/
structure Holds (ps : List TemplatePart) (empty : Prop) (fillers : List Placeholder) : Prop where
  placeholders : placeholdersOf ps = fillers
  ends : EndsInGap ps
  empty_iff : ps = [] ↔ empty

/-- **Pieces that can be written under a condition**, and hold these placeholders then. -/
structure Writes (x : Parts) (possible empty : Prop) (fillers : List Placeholder) : Prop where
  ok : possible → ∃ ps, x = .ok ps ∧ Holds ps empty fillers
  error : ¬possible → x = .error .wrongKind

theorem EndsInGap.append {ps qs : List TemplatePart} (hp : EndsInGap ps) (hq : EndsInGap qs) :
    EndsInGap (ps ++ qs) := by
  intro q h
  rw [List.getLast?_append] at h
  cases hlast : qs.getLast? with
  | none =>
    rw [hlast] at h
    exact hp q h
  | some q' =>
    rw [hlast] at h
    exact hq q (hlast ▸ h)

theorem EndsInGap.of_append {ps qs : List TemplatePart} (hq : EndsInGap qs) (hne : qs ≠ []) :
    EndsInGap (ps ++ qs) := by
  intro q h
  rw [List.getLast?_append_of_ne_nil _ hne] at h
  exact hq q h

theorem EndsInGap.flatten {rows : List (List TemplatePart)} (h : ∀ ps ∈ rows, EndsInGap ps) :
    EndsInGap rows.flatten := by
  induction rows with
  | nil => exact fun _ hq => nomatch hq
  | cons ps rows ih =>
    obtain ⟨hps, hrows⟩ := List.forall_mem_cons.1 h
    exact hps.append (ih hrows)

/-- Pieces that are a gap and placeholders end with an empty line, whatever is before them. -/
theorem endsInGap_fillers (ps : List TemplatePart) (fillers : List Placeholder) :
    EndsInGap (ps ++ .gap :: fillers.map .placeholder) := by
  intro q h
  rw [List.getLast?_append_of_ne_nil _ (List.cons_ne_nil _ _)] at h
  rcases List.mem_cons.1 (List.mem_of_mem_getLast? h) with rfl | hq
  · exact .inl rfl
  · obtain ⟨p, -, rfl⟩ := List.mem_map.1 hq
    exact .inr ⟨p, rfl⟩

theorem Holds.append {ps qs : List TemplatePart} {empty empty' : Prop}
    {fillers fillers' : List Placeholder} (hp : Holds ps empty fillers)
    (hq : Holds qs empty' fillers') : Holds (ps ++ qs) (empty ∧ empty') (fillers ++ fillers') where
  placeholders := by rw [placeholdersOf_append, hp.placeholders, hq.placeholders]
  ends := hp.ends.append hq.ends
  empty_iff := by rw [List.append_eq_nil_iff, hp.empty_iff, hq.empty_iff]

namespace Writes

variable {x : Parts} {possible possible' empty empty' : Prop} {fillers fillers' : List Placeholder}

theorem pure {ps : List TemplatePart} (h : Holds ps empty fillers) :
    Writes (.ok ps) True empty fillers := ⟨fun _ => ⟨ps, rfl, h⟩, fun h => absurd trivial h⟩

theorem bind {f : List TemplatePart → Parts} (hx : Writes x possible empty fillers)
    (hf : ∀ ps, Holds ps empty fillers → Writes (f ps) possible' empty' fillers') :
    Writes (x >>= f) (possible ∧ possible') empty' fillers' := by
  constructor
  · rintro ⟨h, h'⟩
    obtain ⟨ps, rfl, hps⟩ := hx.ok h
    exact (hf ps hps).ok h'
  · intro hnot
    by_cases h : possible
    · obtain ⟨ps, rfl, hps⟩ := hx.ok h
      exact (hf ps hps).error fun h' => hnot ⟨h, h'⟩
    · rw [hx.error h]
      rfl

theorem congr (h : Writes x possible empty fillers) (hp : possible ↔ possible')
    (hempty : empty ↔ empty') (hfillers : fillers = fillers') :
    Writes x possible' empty' fillers' := by
  rw [← hfillers, ← propext hp, ← propext hempty]
  exact h

end Writes

/-- Comments that can be written. -/
def Comments (x : Parts) : Prop := ∃ ps, x = .ok ps ∧ placeholdersOf ps = []

theorem Comments.append {x y : Parts} (hx : Comments x) (hy : Comments y) :
    Comments (do return (← x) ++ (← y)) := by
  obtain ⟨ps, rfl, hps⟩ := hx
  obtain ⟨qs, rfl, hqs⟩ := hy
  exact ⟨ps ++ qs, rfl, by rw [placeholdersOf_append, hps, hqs]; rfl⟩

theorem comments_ok {ps : List TemplatePart} (h : placeholdersOf ps = []) : Comments (.ok ps) :=
  ⟨ps, rfl, h⟩

theorem Amount.Writable.comments {a : Amount} (h : a.Writable) (before behind : String) :
    Comments (amountComment before a behind) := by
  unfold amountComment
  split
  · exact comments_ok rfl
  · obtain ⟨text, htext⟩ := h.text
    rw [htext]
    exact comments_ok rfl

theorem Bounds.Writable.comments {b : Bounds} (h : b.Writable) (what : String) :
    Comments (b.comments what) :=
  (h.min.comments "Minimum" _).append (h.max.comments "Maximum" _)

theorem placeholdersOf_map_eq_nil {α : Type} {f : α → TemplatePart}
    (h : ∀ a, placeholdersOf [f a] = []) (l : List α) : placeholdersOf (l.map f) = [] := by
  induction l with
  | nil => rfl
  | cons a l ih =>
    rw [List.map_cons, ← List.singleton_append, placeholdersOf_append, h a, ih]
    rfl

theorem placeholdersOf_textsComment (before : String) (texts : List String) :
    placeholdersOf (textsComment before texts) = [] := by
  unfold textsComment
  split <;> rfl

/-! ## Requirements -/

section

variable {α : Type} {f : α → Parts} {l : List α}

theorem comments_mapM (h : ∀ a ∈ l, Comments (f a)) :
    ∃ notes, l.mapM f = .ok notes ∧ placeholdersOf notes.flatten = [] := by
  induction l with
  | nil => exact ⟨[], rfl, rfl⟩
  | cons a l ih =>
    obtain ⟨⟨ps, hps, hnone⟩, hl⟩ := List.forall_mem_cons.1 h
    obtain ⟨notes, hnotes, hnone'⟩ := ih hl
    refine ⟨ps :: notes, ?_, ?_⟩
    · rw [List.mapM_cons, hps, hnotes]
      rfl
    · rw [List.flatten_cons, placeholdersOf_append, hnone, hnone']
      rfl

/-- Results in a row of which one is a fault, and no other fault. -/
theorem mapM_eq_wrongKind {possible : α → Prop} (hok : ∀ a ∈ l, possible a → ∃ ps, f a = .ok ps)
    (herror : ∀ a ∈ l, ¬possible a → f a = .error .wrongKind) (h : ¬∀ a ∈ l, possible a) :
    l.mapM f = .error .wrongKind := by
  induction l with
  | nil => exact absurd (List.forall_mem_nil _) h
  | cons a l ih =>
    obtain ⟨hok, hoks⟩ := List.forall_mem_cons.1 hok
    obtain ⟨herror, herrors⟩ := List.forall_mem_cons.1 herror
    rw [List.mapM_cons]
    by_cases ha : possible a
    · obtain ⟨ps, hps⟩ := hok ha
      rw [hps, ih hoks herrors fun hl => h (List.forall_mem_cons.2 ⟨ha, hl⟩)]
      rfl
    · rw [herror ha]
      rfl

/-- The pieces for requirements of one kind. -/
theorem writes_requirementParts {comments placeholders : α → Parts} {possible : α → Prop}
    {fill : α → List Placeholder} (title : String) (hcomments : ∀ a ∈ l, Comments (comments a))
    (hok : ∀ a ∈ l, possible a → placeholders a = .ok ((fill a).map .placeholder))
    (herror : ∀ a ∈ l, ¬possible a → placeholders a = .error .wrongKind) :
    Writes (requirementParts title comments placeholders l) (∀ a ∈ l, possible a) (l = [])
      (l.flatMap fill) := by
  unfold requirementParts
  obtain ⟨notes, hnotes, hnone⟩ := comments_mapM hcomments
  cases l with
  | nil =>
    exact ⟨fun _ => ⟨[], rfl, rfl, fun _ h => (by cases h), iff_of_true rfl rfl⟩,
      fun h => absurd (List.forall_mem_nil _) h⟩
  | cons a l =>
    rw [hnotes]
    constructor
    · intro h
      have hfillers := mapM_ok fun r hr => hok r hr (h r hr)
      refine ⟨(.comment title :: notes.flatten) ++
        (.gap :: ((a :: l).flatMap fill).map .placeholder), ?_, ?_, endsInGap_fillers _ _,
        iff_of_false nofun nofun⟩
      · rw [hfillers]
        exact congrArg (fun fillers => Except.ok ((.comment title :: notes.flatten) ++
          (.gap :: fillers))) (flatten_map_fillers fill (a :: l))
      · have hlead : placeholdersOf (.comment title :: notes.flatten) = [] := hnone
        rw [placeholdersOf_append, hlead]
        exact placeholdersOf_fillers _
    · intro h
      rw [mapM_eq_wrongKind (fun r hr hpossible => ⟨_, hok r hr hpossible⟩) herror h]
      rfl

/-- The pieces for requirements of a kind without placeholders. -/
theorem writes_requirementNotes {comments : α → Parts} (title : String)
    (hcomments : ∀ a ∈ l, Comments (comments a)) :
    Writes (requirementParts title comments (fun _ => .ok []) l) True (l = []) [] := by
  have h : Writes (requirementParts title comments (fun _ => .ok []) l) (∀ a ∈ l, True) (l = [])
      (l.flatMap fun _ => []) :=
    writes_requirementParts title hcomments (fun _ _ _ => rfl) fun _ _ hnot => absurd trivial hnot
  exact h.congr (by simp) Iff.rfl (by simp)

end

theorem writes_textParts (title : String) (patterns : List TextPattern) :
    Writes (textParts title patterns) True (patterns = []) [] :=
  writes_requirementNotes title fun p _ => by cases p <;> exact comments_ok rfl

/-! ### Placeholders for a requirement -/

theorem TableRule.placeholders_eq_error {r : TableRule} (h : ¬r.Countable) :
    r.placeholders = .error .wrongKind := by
  by_cases hcolumns : r.minColumns.value < r.named ∨ r.minColumns.written = none
  · rw [placeholders, headers, columns_eq_ok hcolumns]
    exact r.bounds.placeholders_eq_error (fun hmin => h ⟨hmin, hcolumns⟩) r.filler
  · obtain ⟨hless, hwritten⟩ := not_or.1 hcolumns
    have hnone : r.columns = .error .wrongKind :=
      (if_neg hless).trans (Amount.turns_eq_error hwritten)
    rw [placeholders, headers, hnone]
    rfl

theorem ListRule.placeholders_eq_error {r : ListRule} (h : ¬r.Countable) :
    r.placeholders = .error .wrongKind := by
  by_cases hmin : r.bounds.min.written = none
  · obtain ⟨hsome, hitems⟩ := not_or.1 fun hitems => h ⟨hmin, hitems⟩
    obtain ⟨hitems, hwritten⟩ := not_or.1 hitems
    have hnone : r.itemCount = .error .wrongKind :=
      (if_neg hitems).trans (Amount.turns_eq_error hwritten)
    rw [placeholders, Amount.turns_eq_ok hmin, hnone]
    simp [bind, Except.bind, hsome]
  · rw [placeholders, Amount.turns_eq_error hmin]
    rfl

/-! ## Sections -/

/-- Whether nothing is required of a section. -/
def SectionRules.isEmpty (r : SectionRules) : Bool :=
  r.requiredText.isEmpty && r.forbiddenText.isEmpty && r.codeBlocks.isEmpty && r.images.isEmpty &&
    r.tables.isEmpty && r.lists.isEmpty && r.wordCount.isNone

namespace SectionRules.Writable

variable {r : SectionRules} (h : r.Writable)

include h

theorem writes_codeParts : Writes (requirementParts "Code block requirements:"
    CodeBlockRule.comments CodeBlockRule.placeholders r.codeBlocks)
    (∀ c ∈ r.codeBlocks, c.bounds.min.written = none) (r.codeBlocks = []) r.codeFillers :=
  writes_requirementParts _ (fun c hc => (h.codeBlocks c hc).comments _)
    (fun c _ hmin => c.bounds.placeholders_eq_ok hmin _)
    fun c _ hmin => c.bounds.placeholders_eq_error hmin _

theorem writes_imageParts : Writes (requirementParts "Image requirements:" ImageRule.comments
    ImageRule.placeholders r.images) (∀ i ∈ r.images, i.bounds.min.written = none) (r.images = [])
    r.imageFillers := by
  refine writes_requirementParts _ (fun i hi => ?_)
    (fun i _ hmin => i.bounds.placeholders_eq_ok hmin _)
    fun i _ hmin => i.bounds.placeholders_eq_error hmin _
  obtain ⟨notes, hnotes, hnone⟩ := (h.images i hi).comments "images"
  unfold ImageRule.comments
  rw [hnotes]
  refine comments_ok ?_
  rw [placeholdersOf_append, placeholdersOf_append, hnone, placeholdersOf_textsComment]
  split <;> rfl

theorem writes_tableParts : Writes (requirementParts "Table requirements:" TableRule.comments
    TableRule.placeholders r.tables) (∀ t ∈ r.tables, t.Countable) (r.tables = [])
    r.tableFillers := by
  refine writes_requirementParts _ (fun t ht => ?_)
    (fun t _ h => t.placeholders_eq_ok h.min h.columns) fun t _ h => t.placeholders_eq_error h
  obtain ⟨notes, hnotes, hnone⟩ := (h.tables t ht).1.comments "tables"
  obtain ⟨notes', hnotes', hnone'⟩ := (h.tables t ht).2.comments "Minimum" "columns required"
  unfold TableRule.comments
  rw [hnotes, hnotes']
  refine comments_ok ?_
  rw [placeholdersOf_append, placeholdersOf_append, hnone, hnone', placeholdersOf_textsComment]
  rfl

theorem writes_listParts : Writes (requirementParts "List requirements:" ListRule.comments
    ListRule.placeholders r.lists) (∀ l ∈ r.lists, l.Countable) (r.lists = [])
    r.listFillers :=
  writes_requirementParts _
    (fun l hl => ((h.lists l hl).1.comments _).append ((h.lists l hl).2.comments _ _))
    (fun l _ h => l.placeholders_eq_ok h.min h.items) fun l _ h => l.placeholders_eq_error h

theorem writes_lengthParts : Writes (requirementParts "Word count requirements:"
    (Bounds.comments "words") (fun _ => .ok []) r.wordCount.toList) True
    (r.wordCount.toList = []) [] :=
  writes_requirementNotes _ fun b hb => (h.wordCount b (Option.mem_toList.1 hb)).comments _

/-- **The pieces for the requirements on a section** hold as many placeholders for each as it asks
for at least. -/
theorem writes_parts : Writes r.parts r.Countable (r.isEmpty = true) r.fillers := by
  refine ((writes_textParts _ _).bind fun _ hrequired => (writes_textParts _ _).bind fun _
    hforbidden => h.writes_codeParts.bind fun _ hcode => h.writes_imageParts.bind fun _ himages =>
      h.writes_tableParts.bind fun _ htables => h.writes_listParts.bind fun _ hlists =>
        h.writes_lengthParts.bind fun _ hlength => .pure ((((((hrequired.append hforbidden).append
          hcode).append himages).append htables).append hlists).append hlength)).congr ?_ ?_ ?_
  · constructor
    · rintro ⟨-, -, hcode, himages, htables, hlists, -⟩
      exact ⟨hcode, himages, htables, hlists⟩
    · intro hr
      exact ⟨trivial, trivial, hr.codeBlocks, hr.images, hr.tables, hr.lists, trivial, trivial⟩
  · simp [isEmpty, List.isEmpty_iff]
  · simp [fillers]

end SectionRules.Writable

/-! ## Elements -/

namespace Element

/-- **The placeholders in the section of an element**: those for its requirements, and a text if
there are neither requirements nor elements below it. -/
def fillers (e : Element) : List Placeholder :=
  if e.children.isEmpty && e.rules.isEmpty then [.text] else e.rules.fillers

theorem comments_countParts {e : Element} (h : e.Writable) : Comments e.countParts := by
  unfold countParts
  split
  · exact comments_ok rfl
  · rename_i b hb
    obtain ⟨hmin, hmax⟩ := h.count b hb
    obtain ⟨least, hleast⟩ := hmin.text
    obtain ⟨most, hmost⟩ := hmax.text
    rw [hleast, hmost]
    split <;> exact comments_ok rfl

theorem comments_notes {e : Element} (h : e.Writable) : Comments e.notes := by
  obtain ⟨counts, hcounts, hnone⟩ := comments_countParts h
  have hall : placeholdersOf ((if e.description.isEmpty then [] else [.comment e.description]) ++
      (if e.isRequired then [] else [.comment "Optional section"]) ++ counts) = [] := by
    rw [placeholdersOf_append, placeholdersOf_append, hnone]
    split <;> split <;> rfl
  unfold notes
  rw [hcounts]
  simp only [bind, Except.bind]
  split
  · exact comments_ok rfl
  · refine comments_ok ?_
    rw [placeholdersOf_append, hall]
    rfl

theorem holds_childrenParts (children : List Element) :
    Holds (childrenParts children) (children = []) [] := by
  unfold childrenParts
  cases children with
  | nil => exact ⟨rfl, fun _ h => (by cases h), iff_of_true rfl rfl⟩
  | cons child children =>
    refine ⟨?_, endsInGap_fillers _ [], iff_of_false nofun nofun⟩
    rw [if_neg (by simp), placeholdersOf_append]
    exact congrArg (· ++ []) (placeholdersOf_map_eq_nil (fun _ => rfl) _)

theorem placeholdersOf_heading (depth : Nat) (spec : HeadingSpec) :
    placeholdersOf (spec.parts depth) = [] := by
  cases spec <;> rfl

variable {e : Element} (h : e.Writable)

include h

theorem Writable.writes_contentParts :
    Writes e.contentParts e.rules.Countable False e.fillers := by
  unfold contentParts
  refine (h.rules.writes_parts.bind fun ps hps => ?_).congr (iff_of_eq (and_true _)) Iff.rfl rfl
  have hall := (holds_childrenParts e.children).append hps
  unfold fillers
  split
  · -- nothing is required, and there is a text to fill in
    rename_i hnil
    obtain ⟨hchildren, hempty⟩ := hall.empty_iff.1 hnil
    rw [if_pos (by rw [hchildren, hempty]; rfl)]
    exact .pure ⟨rfl, fun q hq => .inr ⟨.text, (Option.some.inj hq).symm⟩, iff_of_false nofun id⟩
  · rename_i content hsome
    have hnot : ¬(e.children.isEmpty && e.rules.isEmpty) = true := by
      intro hempty
      obtain ⟨hchildren, hempty⟩ := Bool.and_eq_true_iff.1 hempty
      exact hsome (hall.empty_iff.2 ⟨List.isEmpty_iff.1 hchildren, hempty⟩)
    rw [if_neg hnot]
    exact .pure ⟨hall.placeholders, hall.ends, iff_of_false hsome id⟩

/-- **The pieces for an element** without those for the elements below it. -/
theorem Writable.writes_ownParts (depth : Nat) :
    Writes (e.ownParts depth) e.rules.Countable False e.fillers := by
  obtain ⟨notes, hnotes, hnone⟩ := comments_notes h
  unfold ownParts
  rw [hnotes]
  refine (h.writes_contentParts.bind fun ps hps => .pure ⟨?_, ?_, ?_⟩).congr
    (and_iff_left trivial) Iff.rfl rfl
  · have hlead : placeholdersOf (.gap :: notes) = [] := hnone
    rw [placeholdersOf_append, placeholdersOf_append, placeholdersOf_heading, hlead,
      hps.placeholders]
    rfl
  · exact hps.ends.of_append hps.empty_iff.1
  · rw [List.append_eq_nil_iff, hps.empty_iff, and_false]

omit h

/-- The pieces for elements are those for each one in a row, before those for the ones below it. -/
theorem partsOfAll_eq (elements : List Element) : ∀ depth : Nat, partsOfAll depth elements = (do
    return (← (rowsOf depth elements).mapM fun row => row.2.ownParts row.1).flatten) := by
  induction elements using elements_induction with
  | nil => exact fun _ => rfl
  | cons e es ihe ih =>
    intro depth
    rw [rowsOf_cons, List.mapM_cons, List.mapM_append, partsOfAll, parts_eq, ihe, ih]
    generalize (rowsOf (depth + 1) e.children).mapM (fun row => row.2.ownParts row.1) = below
    generalize (rowsOf depth es).mapM (fun row => row.2.ownParts row.1) = rest
    rcases e.ownParts depth with _ | own
    · rfl
    rcases below with _ | below
    · rfl
    rcases rest with _ | rest
    · rfl
    simp [bind, Except.bind, pure, Except.pure]

end Element

/-! ## Templates -/

/-- **What a schema that loads needs for a template**: the first choices of its fields can be
written, and no number of placeholders is written with a point. -/
structure Schema.HasTemplate (s : Schema) : Prop where
  choices : ∀ rules ∈ s.frontMatter, ∀ f ∈ rules.fields, ∀ choice ∈ f.choices.head?,
    choice.writable = true
  counts : ∀ row ∈ rowsOf 1 s.elements, row.2.rules.Countable

/-- **What the template of a schema holds**: the pieces for each element, in order and with those
below it, each with the placeholders for its requirements. It ends with a line break. -/
structure TemplateFor (s : Schema) (text : String) : Prop where
  pieces : ∃ front owns, text = unlines ((front ++ .comment "Generated from schema" :: .gap ::
      owns.flatten).flatMap TemplatePart.lines) ∧ placeholdersOf front = [] ∧
    List.Forall₂ (fun row own => row.2.ownParts row.1 = .ok own ∧
      placeholdersOf own = row.2.fillers) (rowsOf 1 s.elements) owns
  ends : ∃ before, text = before ++ "\n"

theorem FieldRule.exists_line_iff {f : FieldRule} :
    (∃ text, f.line = .ok text) ↔ ∀ choice ∈ f.choices.head?, choice.writable = true := by
  have hline : (∃ text, f.line = .ok text) ↔ ∃ text, f.placeholder = .ok text := by
    constructor
    · rintro ⟨text, h⟩
      obtain ⟨p, hp, -⟩ := bind_eq_ok.1 h
      exact ⟨p, hp⟩
    · rintro ⟨p, hp⟩
      exact ⟨_, bind_eq_ok.2 ⟨p, hp, rfl⟩⟩
  rw [hline]
  unfold placeholder
  split
  · rename_i choice choices hchoices
    rw [hchoices]
    unfold Value.text?
    by_cases h : choice.writable = true <;> simp [h]
  · rename_i hchoices
    rw [hchoices]
    refine iff_of_true ?_ (fun _ h => by cases h)
    split
    · exact ⟨_, rfl⟩
    · split <;> exact ⟨_, rfl⟩

/-- The front matter of a template can be written exactly if the first choices of fields can be. -/
theorem exists_frontMatterParts_iff {rules : Option FrontMatterRules} :
    (∃ front, frontMatterParts rules = .ok front) ↔
      ∀ r ∈ rules, ∀ f ∈ r.fields, ∀ choice ∈ f.choices.head?, choice.writable = true := by
  have hfields : (∃ front, frontMatterParts rules = .ok front) ↔
      ∀ f ∈ rules.elim [] (·.fields), ∃ text, f.line = .ok text := by
    unfold frontMatterParts
    split
    · rename_i hnone
      rw [hnone]
      exact iff_of_true ⟨_, rfl⟩ (List.forall_mem_nil _)
    · rw [← exists_mapM_eq_ok_iff]
      constructor
      · rintro ⟨front, h⟩
        obtain ⟨lines, hlines, -⟩ := bind_eq_ok.1 h
        exact ⟨lines, hlines⟩
      · rintro ⟨lines, hlines⟩
        exact ⟨_, bind_eq_ok.2 ⟨lines, hlines, rfl⟩⟩
  rw [hfields]
  cases rules with
  | none => simp
  | some r => simp [FieldRule.exists_line_iff]

theorem placeholdersOf_frontMatterParts {rules : Option FrontMatterRules}
    {front : List TemplatePart} (h : frontMatterParts rules = .ok front) :
    placeholdersOf front = [] := by
  unfold frontMatterParts at h
  split at h
  · cases h
    rfl
  · obtain ⟨lines, -, h⟩ := bind_eq_ok.1 h
    cases h
    rw [placeholdersOf_append]
    exact congrArg (· ++ []) (placeholdersOf_map_eq_nil (fun _ => rfl) lines)

/-- The pieces for elements, one by one. -/
theorem exists_partsOfAll {elements : List Element} (h : EachElement Element.Writable elements) :
    (∃ ps, Element.partsOfAll 1 elements = .ok ps) ↔
      ∀ row ∈ rowsOf 1 elements, row.2.rules.Countable := by
  have hwrites := fun row hrow => (h.forall_rowsOf 1 row hrow).writes_ownParts row.1
  rw [Element.partsOfAll_eq]
  constructor
  · rintro ⟨ps, hps⟩
    obtain ⟨owns, howns, -⟩ := bind_eq_ok.1 hps
    intro row hrow
    by_contra hnot
    obtain ⟨own, hown⟩ := exists_mapM_eq_ok_iff.1 ⟨owns, howns⟩ row hrow
    cases hown.symm.trans ((hwrites row hrow).error hnot)
  · intro hall
    obtain ⟨owns, howns⟩ := exists_mapM_eq_ok_iff.2 fun row hrow =>
      ((hwrites row hrow).ok (hall row hrow)).imp fun _ hown => hown.1
    exact ⟨_, bind_eq_ok.2 ⟨owns, howns, rfl⟩⟩

/-- The pieces for elements that are written. -/
theorem forall₂_of_partsOfAll {elements : List Element} (h : EachElement Element.Writable elements)
    {ps : List TemplatePart} (hps : Element.partsOfAll 1 elements = .ok ps) :
    ∃ owns, ps = owns.flatten ∧ List.Forall₂ (fun row own => row.2.ownParts row.1 = .ok own ∧
      Holds own False row.2.fillers) (rowsOf 1 elements) owns := by
  rw [Element.partsOfAll_eq] at hps
  obtain ⟨owns, howns, hflatten⟩ := bind_eq_ok.1 hps
  refine ⟨owns, (Except.ok.inj hflatten).symm, ?_⟩
  have hrows := h.forall_rowsOf 1
  rw [mapM_eq_ok_iff] at howns
  clear hps hflatten
  generalize rowsOf 1 elements = rows at hrows howns
  induction howns with
  | nil => exact .nil
  | @cons row own rows owns hown _ ih =>
    obtain ⟨hrow, hrows⟩ := List.forall_mem_cons.1 hrows
    refine .cons ⟨hown, ?_⟩ (ih hrows)
    have hwrites := hrow.writes_ownParts row.1
    by_cases hcount : row.2.rules.Countable
    · obtain ⟨own', hown', hholds⟩ := hwrites.ok hcount
      cases hown.symm.trans hown'
      exact hholds
    · cases hown.symm.trans (hwrites.error hcount)

/-- Lines of which the last one is empty end with a line break. -/
theorem ends_unlines {lines : List String} (h : lines ≠ []) :
    unlines (lines ++ [""]) = unlines lines ++ "\n" := by
  unfold unlines
  rw [String.intercalate_append_of_ne_nil h (List.cons_ne_nil _ _)]
  exact String.append_empty

/-- Pieces that end with an empty line, behind a comment. -/
theorem ends_of_endsInGap {ps qs : List TemplatePart} {note : String} (h : EndsInGap qs)
    (hne : qs ≠ []) : ∃ before,
      unlines ((ps ++ .comment note :: qs).flatMap TemplatePart.lines) = before ++ "\n" := by
  obtain ⟨q, hq⟩ : ∃ q, qs.getLast? = some q :=
    Option.isSome_iff_exists.1 (List.getLast?_isSome.2 hne)
  obtain ⟨front, rfl⟩ := List.getLast?_eq_some_iff.1 hq
  obtain ⟨body, hbody⟩ : ∃ body, q.lines = body ++ [""] := by
    rcases h q hq with rfl | ⟨p, rfl⟩
    · exact ⟨[], rfl⟩
    · exact ⟨p.lines, rfl⟩
  have hlines : (ps ++ .comment note :: (front ++ [q])).flatMap TemplatePart.lines =
      ((ps ++ .comment note :: front).flatMap TemplatePart.lines ++ body) ++ [""] := by
    rw [List.append_assoc, ← hbody, ← List.flatMap_singleton TemplatePart.lines q,
      ← List.flatMap_append, List.append_assoc, List.cons_append]
  rw [hlines, ends_unlines (by simp [TemplatePart.lines])]
  exact ⟨_, rfl⟩

/-- The template of a schema is made of its pieces. -/
theorem template_eq_ok {s : Schema} {text : String} (h : template s = .ok text) :
    ∃ front ps, frontMatterParts s.frontMatter = .ok front ∧
      Element.partsOfAll 1 s.elements = .ok ps ∧
      text = unlines ((front ++ .comment "Generated from schema" :: .gap :: ps).flatMap
        TemplatePart.lines) := by
  obtain ⟨parts, hparts, h⟩ := bind_eq_ok.1 h
  obtain ⟨front, hfront, hparts⟩ := bind_eq_ok.1 hparts
  obtain ⟨ps, hps, hparts⟩ := bind_eq_ok.1 hparts
  cases hparts
  cases h
  exact ⟨front, ps, hfront, hps, rfl⟩

/-- **A schema that loads has a template exactly if no number of placeholders is written with a
point** and the first choices of its fields can be written. The template has as many placeholders
for each requirement as it asks for at least. -/
theorem template_of_loadSchema {v : Value} {source : String} {s : Schema}
    (h : loadSchema v source = .ok s) :
    ((∃ text, template s = .ok text) ↔ s.HasTemplate) ∧
      ∀ text, template s = .ok text → TemplateFor s text := by
  have hwritable := writable_of_loadSchema h
  refine ⟨⟨?_, fun hs => ?_⟩, fun text htext => ?_⟩
  · rintro ⟨text, htext⟩
    obtain ⟨front, ps, hfront, hps, -⟩ := template_eq_ok htext
    exact ⟨exists_frontMatterParts_iff.1 ⟨front, hfront⟩,
      (exists_partsOfAll hwritable).1 ⟨ps, hps⟩⟩
  · obtain ⟨front, hfront⟩ := exists_frontMatterParts_iff.2 hs.choices
    obtain ⟨ps, hps⟩ := (exists_partsOfAll hwritable).2 hs.counts
    exact ⟨_, bind_eq_ok.2 ⟨_, bind_eq_ok.2 ⟨front, hfront, bind_eq_ok.2 ⟨ps, hps, rfl⟩⟩, rfl⟩⟩
  · obtain ⟨front, ps, hfront, hps, rfl⟩ := template_eq_ok htext
    obtain ⟨owns, rfl, howns⟩ := forall₂_of_partsOfAll hwritable hps
    have hends : EndsInGap owns.flatten :=
      .flatten (forall_mem_of_forall₂ (fun _ _ hown => hown.2.ends) howns)
    have hgap : EndsInGap (.gap :: owns.flatten) := (endsInGap_fillers [] []).append hends
    exact ⟨⟨front, owns, rfl, placeholdersOf_frontMatterParts hfront,
      howns.imp fun _ _ hown => ⟨hown.1, hown.2.placeholders⟩⟩,
      ends_of_endsInGap hgap (List.cons_ne_nil _ _)⟩

/-! ### Numbers of placeholders with and without a point -/

/-- A schema of one heading that requires blocks of code, with another one below it. -/
def codeSchema (least : Value) : Value :=
  .map [(.str "structure", .list [.map [(.str "heading", .str "# A"),
    (.str "code_blocks", .list [.map [(.str "min", least)]]),
    (.str "children", .list [.str "## B"])]])]

theorem template_twoBlocks : ∃ s text, loadSchema (codeSchema (.int 2)) "" = .ok s ∧
    template s = .ok text ∧ s.HasTemplate ∧ TemplateFor s text := by
  have hwritten : ((loadSchema (codeSchema (.int 2)) "").toOption.bind fun s =>
      (template s).toOption).isSome = true := by decide +kernel
  cases h : loadSchema (codeSchema (.int 2)) "" with
  | error e =>
    rw [h] at hwritten
    cases hwritten
  | ok s =>
    rw [h] at hwritten
    obtain ⟨hiff, hfor⟩ := template_of_loadSchema h
    cases ht : template s with
    | error fault =>
      simp [Except.toOption, ht] at hwritten
    | ok text => exact ⟨s, text, rfl, ht, hiff.1 ⟨text, ht⟩, hfor text ht⟩

/-- **A number of blocks that is written with a point is loaded and stops the template.** -/
theorem template_pointedBlock :
    (loadSchema (codeSchema (.float 1.0)) "").toOption.map (fun s => failure? (template s)) =
      some (some .wrongKind) := by
  decide +kernel

end Outline

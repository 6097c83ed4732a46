import Outline.Proofs.Rule.Accept
import Outline.Proofs.Structure.Rows
import Outline.Proofs.Template.Filling

/-!
# Schemas that can be filled

**The template of a schema can be written and read, and has one section for each element**
(`Schema.Fillable.exists_document`), if the texts of the schema are plain and no section needs more
than one list.

* `Schema.Fillable`, `Element.Fillable`, `SectionRules.Fillable`: what the template can fill;
* `CodeBlockRule.filler` and the like: the placeholders for requirements;
* `Portion.For`: the portion of the template for an element.
-/

namespace Outline

open Markdown

/-! ## Schemas -/

/-- **Requirements that placeholders can meet**: at most one of each kind, with plain texts. No more
than one list is required, and the number of an item that is written has at most nine digits. -/
structure SectionRules.Fillable (r : SectionRules) : Prop where
  requiredText : ∀ t ∈ r.requiredText, ∃ text, t = .literal text ∧ IsWord text.toList
  forbiddenText : r.forbiddenText = []
  codeBlocks : ∀ c ∈ r.codeBlocks, c.bounds.Satisfiable ∧ IsWord c.lang.toList
  images : ∀ i ∈ r.images, i.bounds.Satisfiable ∧ ∀ f ∈ i.formats, IsWord f.toList
  tables : ∀ t ∈ r.tables,
    t.bounds.Satisfiable ∧ t.minColumns.Short ∧ ∀ h ∈ t.requiredHeaders, IsWord h.toList
  lists : ∀ l ∈ r.lists, l.bounds.Satisfiable ∧ l.minItems.Short ∧ l.bounds.min.value ≤ 1 ∧
    (l.bounds.min.value ≠ 0 → l.kind = some .ordered → l.minItems.value ≤ 999999999)
  one : r.codeBlocks.length ≤ 1 ∧ r.images.length ≤ 1 ∧ r.tables.length ≤ 1 ∧ r.lists.length ≤ 1
  wordCount : r.wordCount = none

/-- **An element at a depth that a section can be made for**: its heading is a plain text behind as
many number signs. -/
structure Element.Fillable (depth : Nat) (e : Element) : Prop where
  depth_le : depth ≤ 6
  heading : ∃ title, PlainText title ∧ title ≠ [] ∧
    e.heading = .literal (writtenHeading depth (String.ofList title))
  count : e.count = none
  description : e.description = ""
  rules : e.rules.Fillable

/-- **A schema that its template satisfies**: it asks nothing of documents as a whole, and a section
can be made for each of its elements. -/
structure Schema.Fillable (s : Schema) : Prop extends s.Local where
  elements : ∀ row ∈ rowsOf 1 s.elements, row.2.Fillable row.1

/-! ## Placeholders -/

/-- The placeholder for a required block of code. -/
def CodeBlockRule.filler (r : CodeBlockRule) : Placeholder := .code r.lang

/-- The placeholder for a required image. -/
def ImageRule.filler (r : ImageRule) : Placeholder := .image (r.formats.headD "png")

/-- The number of columns of the placeholder for a required table. -/
def TableRule.width (r : TableRule) : Nat :=
  max r.minColumns.value (if r.requiredHeaders.isEmpty then 2 else r.requiredHeaders.length)

/-- The headers of the placeholder for a required table. -/
def TableRule.headerRow (r : TableRule) : List String :=
  r.requiredHeaders ++ (List.range' (r.requiredHeaders.length + 1)
    (r.width - r.requiredHeaders.length)).map fun i => "Column " ++ toString i

/-- The placeholder for a required table. -/
def TableRule.filler (r : TableRule) : Placeholder := .table r.headerRow

/-- The number of items of the placeholder for a required list. -/
def ListRule.items (r : ListRule) : Nat := if r.minItems.value = 0 then 3 else r.minItems.value

/-- The placeholder for a required list. -/
def ListRule.filler (r : ListRule) : Placeholder := .list (r.kind = some .ordered) r.items

/-- The number of columns that are named, and two if none is. -/
def TableRule.named (r : TableRule) : Nat :=
  if r.requiredHeaders.isEmpty then 2 else r.requiredHeaders.length

theorem TableRule.columns_eq_ok {r : TableRule}
    (h : r.minColumns.value < r.named ∨ r.minColumns.written = none) : r.columns = .ok r.width := by
  change (if r.minColumns.value < r.named then Except.ok r.named else r.minColumns.turns) =
    .ok (max r.minColumns.value r.named)
  split
  · rename_i hless
    rw [max_eq_right hless.le]
  · rename_i hless
    rw [Amount.turns_eq_ok (h.resolve_left hless), max_eq_left (not_lt.1 hless)]

theorem TableRule.placeholders_eq_ok {r : TableRule} (hmin : r.bounds.min.written = none)
    (h : r.minColumns.value < r.named ∨ r.minColumns.written = none) :
    r.placeholders = .ok ((r.bounds.fill r.filler).map .placeholder) := by
  rw [placeholders, headers, columns_eq_ok h]
  exact r.bounds.placeholders_eq_ok hmin r.filler

theorem ListRule.placeholders_eq_ok {r : ListRule} (hmin : r.bounds.min.written = none)
    (h : r.bounds.min.value = 0 ∨ r.minItems.value = 0 ∨ r.minItems.written = none) :
    r.placeholders = .ok ((r.bounds.fill r.filler).map .placeholder) := by
  rw [placeholders, Amount.turns_eq_ok hmin]
  by_cases hzero : r.bounds.min.value = 0
  · simp [bind, Except.bind, pure, Except.pure, hzero, Bounds.fill]
  · have hcount : r.itemCount = .ok r.items := by
      unfold itemCount items
      split
      · rfl
      · exact Amount.turns_eq_ok ((h.resolve_left hzero).resolve_left ‹_›)
    simp only [bind, Except.bind, if_neg hzero, hcount]
    exact r.bounds.placeholders_eq_ok hmin r.filler

/-- The header of a column with a number. -/
theorem plainText_column (n : Nat) : PlainText ("Column " ++ toString n).toList := by
  have hword : ∀ c ∈ "Column".toList, isAsciiAlnum c = true := by decide
  have hdigits : IsWord (toString n).toList := fun c hc => by
    have hdigit := isAsciiDigit_of_mem_digits hc
    simp only [isAsciiDigit, Bool.and_eq_true, decide_eq_true_eq] at hdigit
    exact isAsciiAlnum_iff.2 (Or.inl hdigit)
  have hchars : ("Column " ++ toString n).toList = "Column".toList ++ ' ' :: (toString n).toList :=
    String.toList_append
  rw [hchars]
  refine ⟨fun c hc => ?_, trim_eq_self_iff.2 ⟨fun c hc => ?_, fun c hc => ?_⟩⟩
  · rcases List.mem_append.1 hc with hc | hc
    · exact Or.inl (hword c hc)
    · exact (List.mem_cons.1 hc).symm.imp_left (hdigits c)
  · rw [← Option.mem_some.1 hc]
    decide
  · rw [List.getLast?_append_of_ne_nil _ (List.cons_ne_nil _ _), ← List.singleton_append,
      List.getLast?_append_of_ne_nil _ (digits_ne_nil n)] at hc
    exact isBlank_of_isAsciiAlnum (hdigits c (List.mem_of_mem_getLast? hc))

section

variable {r : SectionRules} (h : r.Fillable)

include h

theorem SectionRules.Fillable.legible_code : ∀ c ∈ r.codeBlocks, c.filler.Legible :=
  fun c hc => (h.codeBlocks c hc).2

theorem SectionRules.Fillable.legible_image : ∀ i ∈ r.images, i.filler.Legible := by
  intro i hi
  have hformats := (h.images i hi).2
  change IsWord (i.formats.headD "png").toList
  cases hcons : i.formats with
  | nil => exact (by decide : ∀ c ∈ "png".toList, isAsciiAlnum c = true)
  | cons f fs => exact hformats f (hcons ▸ List.mem_cons_self)

theorem SectionRules.Fillable.legible_table : ∀ t ∈ r.tables, t.filler.Legible := by
  intro t ht
  obtain ⟨-, -, hheaders⟩ := h.tables t ht
  refine ⟨fun hnil => ?_, List.forall_mem_append.2
    ⟨fun header hheader => (hheaders header hheader).plainText,
      List.forall_mem_map.2 fun n _ => ?_⟩⟩
  · rw [TableRule.headerRow, List.append_eq_nil_iff, List.map_eq_nil_iff,
      List.range'_eq_nil_iff] at hnil
    have hwidth : 2 ≤ t.width := by
      rw [TableRule.width, if_pos (List.isEmpty_iff.2 hnil.1)]
      exact le_max_right _ _
    have hlength := congrArg List.length hnil.1
    rw [List.length_nil] at hlength
    omega
  · exact plainText_column n

theorem SectionRules.Fillable.legible_list :
    ∀ l ∈ r.lists, l.bounds.min.value ≠ 0 → l.filler.Legible := by
  intro l hl hsome
  obtain ⟨-, -, -, hnumbers⟩ := h.lists l hl
  refine ⟨?_, fun hordered => ?_⟩
  · unfold ListRule.items
    split_ifs <;> omega
  · have := hnumbers hsome (of_decide_eq_true hordered)
    unfold ListRule.items
    split_ifs <;> omega

end

namespace SectionRules

def codeFillers (r : SectionRules) : List Placeholder :=
  r.codeBlocks.flatMap fun c => c.bounds.fill c.filler

def imageFillers (r : SectionRules) : List Placeholder :=
  r.images.flatMap fun i => i.bounds.fill i.filler

def tableFillers (r : SectionRules) : List Placeholder :=
  r.tables.flatMap fun t => t.bounds.fill t.filler

def listFillers (r : SectionRules) : List Placeholder :=
  r.lists.flatMap fun l => l.bounds.fill l.filler

/-- The placeholders for the requirements on a section. -/
def fillers (r : SectionRules) : List Placeholder :=
  r.codeFillers ++ (r.imageFillers ++ (r.tableFillers ++ r.listFillers))

end SectionRules

theorem listless_flatMap {α : Type} {rules : List α} {bounds : α → Bounds}
    {filler : α → Placeholder} (h : ∀ r ordered items, filler r ≠ .list ordered items) :
    Listless (rules.flatMap fun r => (bounds r).fill (filler r)) := by
  intro ordered items hmem
  obtain ⟨r, -, hmem⟩ := List.mem_flatMap.1 hmem
  exact h r ordered items (List.eq_of_mem_replicate hmem).symm

theorem eq_singleton_of_mem {α : Type} {l : List α} (hone : l.length ≤ 1) {a : α} (ha : a ∈ l) :
    l = [a] := by
  match l, hone, ha with
  | [b], _, ha => rw [List.mem_singleton.1 ha]

theorem SectionRules.Fillable.listFillers_alone {r : SectionRules} (h : r.Fillable) :
    Listless r.listFillers ∨ ∃ filler, r.listFillers = [filler] := by
  cases hlists : r.lists with
  | nil =>
    left
    rw [SectionRules.listFillers, hlists]
    exact fun _ _ => List.not_mem_nil
  | cons l ls =>
    have hl : l ∈ r.lists := hlists ▸ List.mem_cons_self
    have hleast := (h.lists l hl).2.2.1
    rw [SectionRules.listFillers, eq_singleton_of_mem h.one.2.2.2 hl, List.flatMap_singleton,
      Bounds.fill]
    rcases Nat.le_one_iff_eq_zero_or_eq_one.1 hleast with hzero | hone
    · rw [hzero]
      exact Or.inl fun _ _ => List.not_mem_nil
    · rw [hone]
      exact Or.inr ⟨l.filler, rfl⟩

section

variable {r : SectionRules} (h : r.Fillable)

include h

/-- The comments on required texts hold the texts. -/
theorem SectionRules.Fillable.exists_textParts :
    ∃ ps, textParts "This section must contain the following text:" r.requiredText = .ok ps ∧
      Filling ps [] ∧ ∀ text, .literal text ∈ r.requiredText → .comment ("- " ++ text) ∈ ps := by
  have hfill : r.requiredText.flatMap (fun _ => ([] : List Placeholder)) = [] := by simp
  have hnotes : ∀ t ∈ r.requiredText, Notes (.ok [t.part]) := fun t ht => by
    obtain ⟨text, rfl, htext⟩ := h.requiredText t ht
    exact notes_comment (quiet_append_iff.2 ⟨by decide, quiet_of_plainText htext.plainText⟩)
  obtain ⟨ps, hps, hfilling, hmem⟩ : ∃ ps,
      textParts "This section must contain the following text:" r.requiredText = .ok ps ∧
        Filling ps (r.requiredText.flatMap fun _ => []) ∧
        ∀ t ∈ r.requiredText, ∀ note, (.ok [t.part] : Parts) = .ok [note] → note ∈ ps :=
    exists_requirementParts (by decide) hnotes (fun _ _ => rfl)
      (fun _ _ _ hp => absurd hp List.not_mem_nil)
      (Or.inl (by rw [hfill]; exact fun _ _ => List.not_mem_nil))
  rw [hfill] at hfilling
  exact ⟨ps, hps, hfilling, fun text htext => hmem _ htext _ rfl⟩

theorem SectionRules.Fillable.exists_codeParts :
    ∃ ps, requirementParts "Code block requirements:" CodeBlockRule.comments
      CodeBlockRule.placeholders r.codeBlocks = .ok ps ∧ Filling ps r.codeFillers :=
  exists_boundedParts (by decide)
    (fun c hc => (h.codeBlocks c hc).1.notes
      (quiet_qualified (quiet_of_plainText (h.codeBlocks c hc).2.plainText) (by decide)))
    (fun c hc => c.bounds.placeholders_eq_ok (h.codeBlocks c hc).1.min.whole c.filler)
    (fun c hc _ => h.legible_code c hc)
    (Or.inl (listless_flatMap fun _ _ _ => nofun))

theorem SectionRules.Fillable.exists_imageParts :
    ∃ ps, requirementParts "Image requirements:" ImageRule.comments ImageRule.placeholders
      r.images = .ok ps ∧ Filling ps r.imageFillers := by
  refine exists_boundedParts (by decide) (fun i hi => ?_)
    (fun i hi => i.bounds.placeholders_eq_ok (h.images i hi).1.min.whole i.filler)
    (fun i hi _ => h.legible_image i hi)
    (Or.inl (listless_flatMap fun _ _ _ => nofun))
  obtain ⟨hbounds, hformats⟩ := h.images i hi
  obtain ⟨notes, hnotes, hquiet⟩ : Notes (i.bounds.comments "images") := hbounds.notes (by decide)
  refine ⟨_, by rw [ImageRule.comments, hnotes]; rfl, List.forall_mem_append.2
    ⟨List.forall_mem_append.2 ⟨hquiet, ?_⟩, isNote_textsComment (by decide) hformats⟩⟩
  split_ifs
  · exact List.forall_mem_singleton.2 ⟨_, rfl, by decide⟩
  · exact fun _ h => absurd h List.not_mem_nil

theorem SectionRules.Fillable.exists_tableParts :
    ∃ ps, requirementParts "Table requirements:" TableRule.comments TableRule.placeholders
      r.tables = .ok ps ∧ Filling ps r.tableFillers := by
  refine exists_boundedParts (by decide) (fun t ht => ?_)
    (fun t ht => t.placeholders_eq_ok (h.tables t ht).1.min.whole (.inr (h.tables t ht).2.1.whole))
    (fun t ht _ => h.legible_table t ht)
    (Or.inl (listless_flatMap fun _ _ _ => nofun))
  obtain ⟨hbounds, hcolumns, hheaders⟩ := h.tables t ht
  obtain ⟨notes, hnotes, hquiet⟩ : Notes (t.bounds.comments "tables") := hbounds.notes (by decide)
  obtain ⟨notes', hnotes', hquiet'⟩ :
      Notes (amountComment "Minimum" t.minColumns "columns required") :=
    notes_amountComment hcolumns (by decide) (by decide)
  exact ⟨_, by rw [TableRule.comments, hnotes, hnotes']; rfl, List.forall_mem_append.2
    ⟨List.forall_mem_append.2 ⟨hquiet, hquiet'⟩, isNote_textsComment (by decide) hheaders⟩⟩

theorem SectionRules.Fillable.exists_listParts :
    ∃ ps, requirementParts "List requirements:" ListRule.comments ListRule.placeholders
      r.lists = .ok ps ∧ Filling ps r.listFillers := by
  refine exists_boundedParts (by decide) (fun l hl => ?_)
    (fun l hl => l.placeholders_eq_ok (h.lists l hl).1.min.whole
      (.inr (.inr (h.lists l hl).2.1.whole)))
    h.legible_list h.listFillers_alone
  obtain ⟨hbounds, hitems, -⟩ := h.lists l hl
  have hkind : Quiet ((l.kind.map ListKind.text).getD "") := by
    rcases l.kind with _ | _ | _ <;> decide
  exact (hbounds.notes (quiet_qualified hkind (by decide))).append
    (notes_amountComment hitems (by decide) (by decide))

/-- **The pieces for the requirements on a section**: there are the placeholders for all of them,
and comments that hold the required texts. -/
theorem SectionRules.Fillable.exists_parts :
    ∃ ps, r.parts = .ok ps ∧ Filling ps r.fillers ∧
      ∀ text, .literal text ∈ r.requiredText → .comment ("- " ++ text) ∈ ps := by
  obtain ⟨required, hrequired, hrequired', htexts⟩ := h.exists_textParts
  obtain ⟨code, hcode, hcode'⟩ := h.exists_codeParts
  obtain ⟨images, himages, himages'⟩ := h.exists_imageParts
  obtain ⟨tables, htables, htables'⟩ := h.exists_tableParts
  obtain ⟨lists, hlists, hlists'⟩ := h.exists_listParts
  have hforbidden : textParts "WARNING: This section must NOT contain the following:"
      r.forbiddenText = .ok [] := by rw [h.forbiddenText]; rfl
  have hlength : requirementParts "Word count requirements:" (Bounds.comments "words")
      (fun _ => .ok []) r.wordCount.toList = .ok [] := by rw [h.wordCount]; rfl
  have hcodeless : Listless r.codeFillers := listless_flatMap fun _ _ _ => nofun
  have himageless : Listless r.imageFillers := listless_flatMap fun _ _ _ => nofun
  have htableless : Listless r.tableFillers := listless_flatMap fun _ _ _ => nofun
  refine ⟨required ++ (code ++ (images ++ (tables ++ lists))), ?_, ?_, fun text htext =>
    List.mem_append_left _ (htexts text htext)⟩
  · rw [SectionRules.parts, hrequired, hforbidden, hcode, himages, htables, hlists, hlength]
    simp [bind, Except.bind, pure, Except.pure]
  · have hnone : Listless [] := fun _ _ => List.not_mem_nil
    exact hrequired'.append hnone (hcode'.append hcodeless (himages'.append himageless
      (htables'.append htableless hlists')))

end

/-! ## Elements -/

section

variable {depth : Nat} {e : Element} (h : e.Fillable depth)

include h

theorem Element.Fillable.exists_notes : ∃ ps, e.notes = .ok ps ∧ Filling ps [] := by
  have hnone : e.countParts = .ok [] := by rw [Element.countParts, h.count]
  have hdescribed : e.description.isEmpty = true := by rw [h.description]; rfl
  by_cases hrequired : e.isRequired = true
  · exact ⟨[], by rw [Element.notes, hnone, if_pos hdescribed, if_pos hrequired]; rfl, .nil⟩
  · refine ⟨[.comment "Optional section", .gap], ?_, ?_⟩
    · rw [Element.notes, hnone, if_pos hdescribed, if_neg hrequired]
      rfl
    · have hnote : ∀ q ∈ [TemplatePart.comment "Optional section"], q.IsNote :=
        List.forall_mem_singleton.2 ⟨_, rfl, by decide⟩
      exact Filling.nil.gap.notes hnote (List.cons_ne_nil _ _)

end

/-- The comments on the headings below a section. -/
theorem filling_childrenParts {children : List Element}
    (h : ∀ child ∈ children, Quiet child.heading.display) :
    Filling (childrenParts children) [] := by
  unfold childrenParts
  split_ifs
  · exact .nil
  · refine .notes (List.forall_mem_cons.2
      ⟨⟨_, rfl, by decide⟩, List.forall_mem_map.2 fun c hc => ⟨_, rfl, ?_⟩⟩) (List.cons_ne_nil _ _)
      Filling.nil.gap
    have hchild : c.1 ∈ children := List.fst_mem_of_mem_zipIdx hc
    simp only [quiet_append_iff]
    refine ⟨⟨⟨quiet_toString _, by decide⟩, h c.1 hchild⟩, ?_⟩
    split_ifs <;> decide

/-- **A portion for an element in a row**: it has its heading and holds what is required. -/
structure Portion.For (p : Portion) (row : Nat × Element) : Prop where
  sound : p.Sound
  fillable : row.2.rules.Fillable
  level : p.level = row.1
  heading : row.2.heading = .literal (writtenHeading p.level (String.ofList p.title))
  texts : ∀ text, .literal text ∈ row.2.rules.requiredText → .comment ("- " ++ text) ∈ p.body
  fillers : ∃ lead, (∀ filler ∈ lead, filler = .text) ∧
    placeholdersOf p.body = lead ++ row.2.rules.fillers

/-- The comments and placeholders of a section. -/
theorem Element.Fillable.exists_contentParts {depth : Nat} {e : Element} (h : e.Fillable depth)
    (hchildren : ∀ child ∈ e.children, Quiet child.heading.display) :
    ∃ ps lead, e.contentParts = .ok ps ∧ (∀ filler ∈ lead, filler = .text) ∧
      Filling ps (lead ++ e.rules.fillers) ∧
      ∀ text, .literal text ∈ e.rules.requiredText → .comment ("- " ++ text) ∈ ps := by
  obtain ⟨ps, hps, hfilling, htexts⟩ := h.rules.exists_parts
  have hall : Filling (childrenParts e.children ++ ps) e.rules.fillers :=
    (filling_childrenParts hchildren).append (fun _ _ => List.not_mem_nil) hfilling
  rw [Element.contentParts, hps]
  cases hcontent : childrenParts e.children ++ ps with
  | nil =>
    -- Where nothing is required there is a text to fill in, which no rule looks at.
    rw [hcontent] at hall
    have hnone : e.rules.fillers = [] := hall.placeholders.symm
    refine ⟨[.placeholder .text], [.text], ?_, fun _ h => List.mem_singleton.1 h, ?_, ?_⟩
    · simp only [bind, Except.bind, hcontent]
      rfl
    · have htext : Filling ([Placeholder.text].map .placeholder) [.text] :=
        .fillers (fun _ h => List.mem_singleton.1 h ▸ trivial) (Or.inr ⟨_, rfl⟩)
      rw [hnone]
      exact htext
    · intro text htext
      rw [(List.append_eq_nil_iff.1 hcontent).2] at htexts
      exact absurd (htexts text htext) List.not_mem_nil
  | cons q qs =>
    refine ⟨q :: qs, [], ?_, fun _ h => absurd h List.not_mem_nil, ?_, fun text htext => ?_⟩
    · simp only [bind, Except.bind, hcontent]
      rfl
    · rw [← hcontent]
      exact hall
    · rw [← hcontent]
      exact List.mem_append_right _ (htexts text htext)

/-- **There is a portion for each element that a section can be made for.** -/
theorem Element.Fillable.exists_portion {depth : Nat} {e : Element} (h : e.Fillable depth)
    (hpos : 1 ≤ depth) (hchildren : ∀ child ∈ e.children, Quiet child.heading.display) :
    ∃ p : Portion, p.For (depth, e) ∧ e.ownParts depth = .ok p.parts := by
  obtain ⟨notes, hnotes, hnotes'⟩ := h.exists_notes
  obtain ⟨content, lead, hcontent, hlead, hcontent', htexts⟩ := h.exists_contentParts hchildren
  obtain ⟨title, hplain, hsome, hheading⟩ := h.heading
  have hbody : Filling (notes ++ content) (lead ++ e.rules.fillers) :=
    hnotes'.append (fun _ _ => List.not_mem_nil) hcontent'
  refine ⟨⟨depth, title, notes ++ content⟩, ⟨⟨hpos, h.depth_le, hplain, hsome, hbody.lines, ?_, ?_⟩,
    h.rules, rfl, hheading, fun text htext => List.mem_append_right _ (htexts text htext),
    lead, hlead, hbody.placeholders⟩, ?_⟩
  · rw [hbody.placeholders]
    exact hbody.sound
  · exact fun rest hrest hfirst => hbody.legible rest hrest (Or.inr hfirst)
  · rw [Element.ownParts, hnotes, hcontent, hheading]
    rfl

theorem Element.parts_eq (depth : Nat) (e : Element) : Element.parts depth e = (do
    return (← e.ownParts depth) ++ (← Element.partsOfAll (depth + 1) e.children)) := by
  cases e
  rfl

/-- **The template has a portion for each element**, in order. -/
theorem exists_portions (elements : List Element) : ∀ {depth : Nat}, 1 ≤ depth →
    (∀ row ∈ rowsOf depth elements, row.2.Fillable row.1) →
    ∃ portions : List Portion,
      List.Forall₂ (fun row p => p.For row) (rowsOf depth elements) portions ∧
      Element.partsOfAll depth elements = .ok (portions.flatMap Portion.parts) := by
  induction elements using elements_induction with
  | nil => exact fun _ _ => ⟨[], .nil, rfl⟩
  | cons e es ihe ih =>
    intro depth hpos h
    rw [rowsOf_cons] at h ⊢
    obtain ⟨he, hmore⟩ := List.forall_mem_cons.1 h
    obtain ⟨hbelow, hrest⟩ := List.forall_mem_append.1 hmore
    -- The comments on a section name the headings below it.
    have hchildren : ∀ child ∈ e.children, Quiet child.heading.display := fun child hchild => by
      obtain ⟨title, hplain, -, hheading⟩ := (hbelow _ (mem_rowsOf hchild)).heading
      rw [hheading]
      exact quiet_writtenHeading (depth + 1) hplain
    obtain ⟨p, hp, hown⟩ := Element.Fillable.exists_portion he hpos hchildren
    obtain ⟨below, hbelow', hparts⟩ := ihe (Nat.le_succ_of_le hpos) hbelow
    obtain ⟨rest, hrest', hparts'⟩ := ih hpos hrest
    refine ⟨p :: (below ++ rest), .cons hp (List.rel_append hbelow' hrest'), ?_⟩
    rw [Element.partsOfAll, Element.parts_eq, hown, hparts, hparts', List.flatMap_cons,
      List.flatMap_append, ← List.append_assoc]
    rfl

/-- **The template of a schema that can be filled can be written and read**: its document has one
section for each element, with the level of its depth, in order. -/
theorem Schema.Fillable.exists_document {schema : Schema} (h : schema.Fillable) (path : String) :
    ∃ text d portions flat, template schema = .ok text ∧ parseDocument text path = .ok d ∧
      d.path = path ∧ d.sections = nest flat ∧
      List.Forall₂ (fun row p => p.For row) (rowsOf 1 schema.elements) portions ∧
      List.Forall₂ Portion.ReadAs portions flat := by
  obtain ⟨portions, hportions, hparts⟩ := exists_portions schema.elements (Nat.le_refl 1) h.elements
  have hsound : ∀ p ∈ portions, p.Sound :=
    forall_mem_of_forall₂ (fun _ _ hp => hp.sound) hportions
  have htemplate : template schema =
      .ok (textOf
        (.comment "Generated from schema" :: .gap :: portions.flatMap Portion.parts)) := by
    rw [template, Schema.parts, h.frontMatter, hparts]
    rfl
  have hnote : Quiet "Generated from schema" := by decide
  obtain ⟨d, flat, hparse, hpath, hnest, hread⟩ := parseDocument_textOf hsound hnote path
  exact ⟨_, d, portions, flat, htemplate, hparse, hpath, hnest, hportions, hread⟩

end Outline

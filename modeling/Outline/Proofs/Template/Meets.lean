import Outline.Proofs.Rule.Literal
import Outline.Proofs.Template.Fill

/-!
# Sections that meet requirements

**A section that holds what is required of it meets the requirements of its element**
(`Body.Meets.placed`): the placeholders are as many as required, and of the kind required.

* `Body.Meets`: a body with the elements of all placeholders, and the required texts;
* `addressExtension_imagePath`: the format of the placeholder for an image.
-/

namespace Outline

open Markdown

/-! ## Requirements -/

/-- **A body that holds what is required of it**: the elements of all placeholders, and the required
texts. -/
structure Body.Meets (b : Body) (r : SectionRules) : Prop where
  shows : ∃ lead, (∀ filler ∈ lead, filler = .text) ∧ Shows b.elements (lead ++ r.fillers)
  texts : ∀ text, .literal text ∈ r.requiredText → text.toList <:+: b.text.toList

theorem flatMap_none {α β : Type} (l : List α) : l.flatMap (fun _ => ([] : List β)) = [] :=
  List.flatMap_eq_nil_iff.2 fun _ _ => rfl

theorem filterMap_fillers {β : Type} {k : Placeholder → Option β} {lead : List Placeholder}
    (hlead : ∀ filler ∈ lead, filler = .text) (hk : k .text = none) (r : SectionRules) :
    (lead ++ r.fillers).filterMap k =
      r.codeBlocks.flatMap (fun c => (k c.filler).elim [] (List.replicate c.bounds.min.value)) ++
      (r.images.flatMap (fun i => (k i.filler).elim [] (List.replicate i.bounds.min.value)) ++
      (r.tables.flatMap (fun t => (k t.filler).elim [] (List.replicate t.bounds.min.value)) ++
        r.lists.flatMap fun l => (k l.filler).elim [] (List.replicate l.bounds.min.value))) := by
  have hnone : lead.filterMap k = [] := by
    rw [List.filterMap_eq_nil_iff]
    intro p hp
    rw [hlead p hp, hk]
  have hfill : ∀ (b : Bounds) (p : Placeholder),
      (b.fill p).filterMap k = (k p).elim [] (List.replicate b.min.value) := by
    intro b p
    rw [Bounds.fill, List.filterMap_replicate]
    cases k p <;> rfl
  simp only [List.filterMap_append, hnone, List.nil_append, SectionRules.fillers,
    SectionRules.codeFillers, SectionRules.imageFillers, SectionRules.tableFillers,
    SectionRules.listFillers, List.filterMap_flatMap, hfill]

theorem thingMessages_eq_nil {b : Bounds} (h : b.Satisfiable) (p : Placed) (few many : String) :
    thingMessages p b.min.value b few many = .ok [] := by
  have hmany : ¬ (0 < b.max.value ∧ b.max.value < b.min.value) := by
    rcases h.order with hzero | hle <;> omega
  simp [thingMessages, countMessages, hmany, bind, Except.bind, pure, Except.pure]

section

variable {r : SectionRules} {s : Section} {p : Placed}

/-- The blocks of code in a section are as many as required, and of the language required; images,
tables and lists likewise. -/
theorem Body.Meets.codeBlocks_eq (h : s.body.Meets r) (hr : r.Fillable) {c : CodeBlockRule}
    (hc : c ∈ r.codeBlocks) : s.body.elements.codeBlocks.map CodeBlock.lang =
      List.replicate c.bounds.min.value (if c.lang.isEmpty then "text" else c.lang) := by
  obtain ⟨lead, hlead, hshows⟩ := h.shows
  rw [hshows.codeBlocks, filterMap_fillers hlead rfl, eq_singleton_of_mem hr.one.1 hc]
  simp [CodeBlockRule.filler, ImageRule.filler, TableRule.filler, ListRule.filler,
    Placeholder.lang?, flatMap_none]

theorem Body.Meets.images_eq (h : s.body.Meets r) (hr : r.Fillable) {i : ImageRule}
    (hi : i ∈ r.images) : s.body.elements.images.map (fun i => (i.url, i.alt)) =
      List.replicate i.bounds.min.value
        (Placeholder.imagePath (i.formats.headD "png"), "TODO: Add alt text") := by
  obtain ⟨lead, hlead, hshows⟩ := h.shows
  rw [hshows.images, filterMap_fillers hlead rfl, eq_singleton_of_mem hr.one.2.1 hi]
  simp [CodeBlockRule.filler, ImageRule.filler, TableRule.filler, ListRule.filler,
    Placeholder.image?, flatMap_none]

theorem Body.Meets.tables_eq (h : s.body.Meets r) (hr : r.Fillable) {t : TableRule}
    (ht : t ∈ r.tables) : s.body.elements.tables.map Table.headers =
      List.replicate t.bounds.min.value t.headerRow := by
  obtain ⟨lead, hlead, hshows⟩ := h.shows
  rw [hshows.tables, filterMap_fillers hlead rfl, eq_singleton_of_mem hr.one.2.2.1 ht]
  simp [CodeBlockRule.filler, ImageRule.filler, TableRule.filler, ListRule.filler,
    Placeholder.headers?, flatMap_none]

theorem Body.Meets.lists_eq (h : s.body.Meets r) (hr : r.Fillable) {l : ListRule}
    (hl : l ∈ r.lists) : s.body.elements.lists.map (fun l => (l.ordered, l.itemCount)) =
      List.replicate l.bounds.min.value (decide (l.kind = some .ordered), l.items) := by
  obtain ⟨lead, hlead, hshows⟩ := h.shows
  rw [hshows.lists, filterMap_fillers hlead rfl, eq_singleton_of_mem hr.one.2.2.2 hl]
  simp [CodeBlockRule.filler, ImageRule.filler, TableRule.filler, ListRule.filler,
    Placeholder.items?, flatMap_none]

end

/-! ## Extensions -/

theorem splitLast_append {sep : Char} (front : List Char) {back : List Char} (h : sep ∉ back) :
    splitLast sep (front ++ sep :: back) = (front ++ [sep], back) := by
  have hback : ∀ c ∈ back.reverse, (c != sep) = true := fun c hc => by
    rw [List.mem_reverse] at hc
    exact bne_iff_ne.2 fun heq => h (heq ▸ hc)
  have hsep : ¬ (sep != sep) = true := by simp
  rw [splitLast]
  simp only [List.reverse_append, List.reverse_cons, List.append_assoc, List.singleton_append]
  rw [List.takeWhile_append_of_pos hback, List.dropWhile_append_of_pos hback,
    List.takeWhile_cons_of_neg (p := fun c => c != sep) hsep,
    List.dropWhile_cons_of_neg (p := fun c => c != sep) hsep]
  simp

/-- **The extension of the address of a placeholder for an image is its format.** -/
theorem addressExtension_imagePath {format : String} (h : IsWord format.toList) :
    addressExtension (Placeholder.imagePath format) = lowerChars format.toList := by
  have hpath := Placeholder.plainAddress_imagePath h
  have hne : ∀ {d : Char}, isAsciiAlnum d = false → d ∉ format.toList := fun hd hmem => by
    rw [h _ hmem] at hd
    cases hd
  have hquery : (Placeholder.imagePath format).toList.takeWhile (· != '?') =
      (Placeholder.imagePath format).toList :=
    List.takeWhile_eq_self_iff.2 fun c hc => bne_iff_ne.2 (hpath.ne_of_mem hc (by decide))
  have hfragment : (Placeholder.imagePath format).toList.takeWhile (· != '#') =
      (Placeholder.imagePath format).toList :=
    List.takeWhile_eq_self_iff.2 fun c hc => bne_iff_ne.2 (hpath.ne_of_mem hc (by decide))
  have hsplit : splitExtension (Placeholder.imagePath format).toList =
      ("path/to/image".toList, '.' :: format.toList) := by
    have hchars : (Placeholder.imagePath format).toList =
        "path/to".toList ++ '/' :: ("image".toList ++ '.' :: format.toList) := by
      rw [Placeholder.imagePath, String.toList_append]
      rfl
    have hslash : '/' ∉ "image".toList ++ '.' :: format.toList := by
      simp only [List.mem_append, List.mem_cons, not_or]
      exact ⟨by decide, by decide, hne (by decide)⟩
    rw [splitExtension, hchars, splitLast_append _ hslash]
    dsimp only
    rw [splitLast_append _ (hne (by decide))]
    rfl
  have hdot : ('.' :: format.toList).dropWhile (· == '.') = format.toList := by
    rw [List.dropWhile_cons_of_pos (by decide)]
    cases hcons : format.toList with
    | nil => rfl
    | cons c cs =>
      have hc : c ≠ '.' := fun heq => hne (d := '.') (by decide) (heq ▸ hcons ▸ List.mem_cons_self)
      exact List.dropWhile_cons_of_neg (by simpa using hc)
  rw [addressExtension, hquery, hfragment, hsplit]
  dsimp only
  rw [hdot]

/-! ## Checks -/

section

variable {r : SectionRules} {s : Section} {p : Placed}

theorem length_of_map_eq {α β : Type} {f : α → β} {l : List α} {n : Nat} {b : β}
    (h : l.map f = List.replicate n b) : l.length = n := by
  rw [← List.length_map f, h, List.length_replicate]

theorem eq_of_map_eq {α β : Type} {f : α → β} {l : List α} {n : Nat} {b : β}
    (h : l.map f = List.replicate n b) : ∀ a ∈ l, f a = b := fun _ ha =>
  List.eq_of_mem_replicate (h ▸ List.mem_map_of_mem ha)

/-- A table with the headers of the placeholder is in order. -/
theorem checkTable_eq_nil (p : Placed) {t : TableRule} {table : Table}
    (h : table.headers = t.headerRow) : checkTable p t table = .ok [] := by
  have hlength : t.headerRow.length = max t.width t.requiredHeaders.length := by
    rw [TableRule.headerRow, List.length_append, List.length_map, List.length_range']
    omega
  have hwide : ¬ t.headerRow.length < t.minColumns.value := by
    have hwidth : t.minColumns.value ≤ t.width := le_max_left _ _
    omega
  have hmissing : (t.requiredHeaders.filter fun header =>
      !(t.headerRow.map headerKey).contains (headerKey header)) = [] := by
    rw [List.filter_eq_nil_iff]
    intro header hheader
    have hmem : headerKey header ∈ t.headerRow.map headerKey :=
      List.mem_map_of_mem (List.mem_append_left _ hheader)
    simpa using hmem
  rw [checkTable, h]
  dsimp only
  rw [if_neg hwide, hmissing]
  rfl

variable (h : s.body.Meets r) (hr : r.Fillable) (hp : p.node.boundTo? = some s)

include h hr hp

theorem checkCodeBlocks_eq_nil {c : CodeBlockRule} (hc : c ∈ r.codeBlocks) :
    checkCodeBlocks p c = .ok [] := by
  have hshown := h.codeBlocks_eq hr hc
  have helements : p.node.elements = s.body.elements := by rw [Node.elements, hp]
  have hcount : (s.body.elements.codeBlocks.countP fun b => c.lang.isEmpty || b.lang == c.lang) =
      c.bounds.min.value := by
    rw [← length_of_map_eq hshown, List.countP_eq_length]
    intro b hb
    have hlang := eq_of_map_eq hshown b hb
    split_ifs at hlang with hempty
    · rw [hempty, Bool.true_or]
    · rw [hlang, beq_self_eq_true, Bool.or_true]
  rw [checkCodeBlocks, helements, hcount, thingMessages_eq_nil (hr.codeBlocks c hc).1]
  rfl

theorem checkImages_eq_nil {i : ImageRule} (hi : i ∈ r.images) : checkImages p i = .ok [] := by
  have hshown := h.images_eq hr hi
  obtain ⟨hbounds, hformats⟩ := hr.images i hi
  have helements : p.node.elements = s.body.elements := by rw [Node.elements, hp]
  have hcount : (s.body.elements.images.countP fun image =>
      i.formats.isEmpty || hasFormat image.url i.formats) = i.bounds.min.value := by
    rw [← length_of_map_eq hshown, List.countP_eq_length]
    intro image himage
    have hurl : image.url = Placeholder.imagePath (i.formats.headD "png") :=
      congrArg Prod.fst (eq_of_map_eq hshown image himage)
    cases hcons : i.formats with
    | nil => rfl
    | cons f fs =>
      have hf : IsWord f.toList := hformats f (hcons ▸ List.mem_cons_self)
      rw [hurl, hcons, hasFormat, List.any_cons, List.headD_cons, addressExtension_imagePath hf,
        beq_self_eq_true, Bool.true_or, Bool.or_true]
  have hsilent : (s.body.elements.images.filter fun image =>
      i.requireAlt && (strip image.alt).isEmpty) = [] := by
    rw [List.filter_eq_nil_iff]
    intro image himage
    have halt : image.alt = "TODO: Add alt text" :=
      congrArg Prod.snd (eq_of_map_eq hshown image himage)
    rw [halt, Bool.and_eq_true, not_and]
    exact fun _ => by decide
  rw [checkImages, helements]
  dsimp only
  rw [hcount, hsilent, thingMessages_eq_nil hbounds]
  rfl

theorem checkTables_eq_nil {t : TableRule} (ht : t ∈ r.tables) : checkTables p t = .ok [] := by
  have hshown := h.tables_eq hr ht
  have helements : p.node.elements = s.body.elements := by rw [Node.elements, hp]
  have htables : ∀ table ∈ s.body.elements.tables, checkTable p t table = .ok [] :=
    fun table htable => checkTable_eq_nil p (eq_of_map_eq hshown table htable)
  obtain ⟨found, hfound, hnone⟩ := flatten_eq_nil_of_mapM.2 htables
  rw [checkTables, helements, length_of_map_eq hshown, thingMessages_eq_nil (hr.tables t ht).1,
    hfound]
  exact congrArg Except.ok hnone

theorem checkLists_eq_nil {l : ListRule} (hl : l ∈ r.lists) : checkLists p l = .ok [] := by
  have hshown := h.lists_eq hr hl
  have helements : p.node.elements = s.body.elements := by rw [Node.elements, hp]
  have hkinds : (s.body.elements.lists.filter fun list => list.isOf l.kind) =
      s.body.elements.lists := by
    rw [List.filter_eq_self]
    intro list hlist
    have hordered : list.ordered = decide (l.kind = some .ordered) :=
      congrArg Prod.fst (eq_of_map_eq hshown list hlist)
    cases hkind : l.kind with
    | none => rfl
    | some kind => cases kind <;> simp [ItemList.isOf, hordered, hkind]
  have hlists : ∀ list ∈ s.body.elements.lists, checkItems p l list = .ok [] := by
    intro list hlist
    have hitems : list.itemCount = l.items := congrArg Prod.snd (eq_of_map_eq hshown list hlist)
    have hmin : ¬ l.items < l.minItems.value := by
      unfold ListRule.items
      split_ifs <;> omega
    rw [checkItems, hitems, if_neg hmin]
    rfl
  obtain ⟨found, hfound, hnone⟩ := flatten_eq_nil_of_mapM.2 hlists
  rw [checkLists, helements, hkinds, length_of_map_eq hshown,
    thingMessages_eq_nil (hr.lists l hl).1, hfound]
  exact congrArg Except.ok hnone

/-- **A section that holds what is required of it meets the requirements of its element.** -/
theorem Body.Meets.placed (hrules : p.node.element.rules = r) : p.Meets := by
  have hcontent : p.node.content = s.body.text := by rw [Node.content, hp]
  constructor <;> rw [hrules]
  · intro t ht
    obtain ⟨text, rfl, -⟩ := hr.requiredText t ht
    rw [hcontent, TextPattern.occursIn, Text.contains_iff.2 (h.texts text ht)]
    rfl
  · rw [hr.forbiddenText]
    exact fun _ ht => absurd ht List.not_mem_nil
  · exact fun c hc => checkCodeBlocks_eq_nil h hr hp hc
  · exact fun i hi => checkImages_eq_nil h hr hp hi
  · exact fun t ht => checkTables_eq_nil h hr hp ht
  · exact fun l hl => checkLists_eq_nil h hr hp hl
  · rw [hr.wordCount]
    exact fun _ hb => absurd hb List.not_mem_nil

end

end Outline

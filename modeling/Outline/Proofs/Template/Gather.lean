import Outline.Document.Build
import Outline.Proofs.Document.Lines
import Outline.Proofs.Template.Legible

/-!
# Gathering what templates show

Each placeholder adds one element to the section that it stands in (`Shows.placeholder`), so **the
document of a template has one section for each portion of it**, with the elements that its
placeholders show (`parseDocument_textOf`).

* `Shows`: elements that are those of placeholders;
* `Portion`: a heading and the pieces behind it;
* `Portion.ReadAs`: the section that a portion is read as.
-/

namespace Outline

open Markdown

/-! ## Elements of placeholders -/

namespace Placeholder

/-- The language of a block of code. -/
def lang? : Placeholder → Option String
  | .code lang => some (if lang.isEmpty then "text" else lang)
  | _ => none

/-- The headers of a table. -/
def headers? : Placeholder → Option (List String)
  | .table headers => some headers
  | _ => none

/-- The address of an image and its text. -/
def image? : Placeholder → Option (String × String)
  | .image format => some (imagePath format, "TODO: Add alt text")
  | _ => none

/-- Whether a list is ordered, and the number of its items. -/
def items? : Placeholder → Option (Bool × Nat)
  | .list ordered items => some (ordered, items)
  | _ => none

end Placeholder

/-- **The elements are those of placeholders**, as far as rules look at them. -/
structure Shows (e : Elements) (ps : List Placeholder) : Prop where
  codeBlocks : e.codeBlocks.map CodeBlock.lang = ps.filterMap Placeholder.lang?
  tables : e.tables.map Table.headers = ps.filterMap Placeholder.headers?
  images : e.images.map (fun i => (i.url, i.alt)) = ps.filterMap Placeholder.image?
  lists : e.lists.map (fun l => (l.ordered, l.itemCount)) = ps.filterMap Placeholder.items?

theorem shows_nil : Shows {} [] := ⟨rfl, rfl, rfl, rfl⟩

/-! ## Events of placeholders -/

/-- What has been gathered, with other elements in the last entry. -/
def Gathering.showing (g : Gathering) (e : Entry) (es : List Entry) (elements : Elements) :
    Gathering :=
  { g with entries := { e with elements := elements } :: es }

section

variable {lines : List (List Char)} {g : Gathering} {e : Entry} {es : List Entry} {els : Elements}

theorem linksIn_plain {cs : List Char} (h : ∀ c ∈ cs, isSpecial c = false) (first stop : Nat) :
    linksIn lines first stop (inlinesOf [] cs) = [] := by
  rw [inlinesOf_plain [] h]
  split_ifs <;> rfl

theorem imagesIn_plain {cs : List Char} (h : ∀ c ∈ cs, isSpecial c = false) (first stop : Nat) :
    imagesIn lines first stop (inlinesOf [] cs) = [] := by
  rw [inlinesOf_plain [] h]
  split_ifs <;> rfl

theorem step_plain (hhead : g.inHead = false) {cs : List Char}
    (hcs : ∀ c ∈ cs, isSpecial c = false) (first stop : Nat) :
    (g.showing e es els).step lines (.text first stop (inlinesOf [] cs)) = g.showing e es els := by
  simp only [Gathering.step, Gathering.showing, Gathering.change, hhead, Bool.false_and,
    Bool.false_eq_true, if_false, linksIn_plain hcs, imagesIn_plain hcs, List.append_nil]

theorem plainText_inlinesOf {cs : List Char} (h : PlainText cs) :
    Markdown.plainText (inlinesOf [] cs) = cs := by
  rw [inlinesOf_plain [] h.isSpecial_eq_false]
  split_ifs with hnil
  · rw [List.isEmpty_iff.1 hnil]
    rfl
  · rw [Markdown.plainText, List.flatMap_singleton, h.trimmed]

theorem foldl_step_plain (hhead : g.inHead = false) {row : List (List Char)}
    (hrow : ∀ cs ∈ row, ∀ c ∈ cs, isSpecial c = false) (line : Nat) :
    (rowEvents [] line row).foldl (Gathering.step lines) (g.showing e es els) =
      g.showing e es els := by
  induction row with
  | nil => rfl
  | cons cs row ih =>
    obtain ⟨hcs, hrow⟩ := List.forall_mem_cons.1 hrow
    rw [rowEvents, List.map_cons, List.foldl_cons, step_plain hhead hcs]
    exact ih hrow

/-- The cells of the head of a table are its headers. -/
theorem foldl_step_head (hhead : g.inHead = true) (htable : g.inTable = true) {row : List String}
    (hrow : ∀ header ∈ row, PlainText header.toList) (line : Nat) {ts : List Table}
    {headers : List String} {l c : Nat} :
    (rowEvents [] line (row.map String.toList)).foldl (Gathering.step lines)
        (g.showing e es { els with tables := ts ++ [⟨headers, l, c⟩] }) =
      g.showing e es { els with tables := ts ++ [⟨headers ++ row, l, c⟩] } := by
  induction row generalizing headers with
  | nil => simp [rowEvents]
  | cons header row ih =>
    obtain ⟨hheader, hrow⟩ := List.forall_mem_cons.1 hrow
    have hstep : (g.showing e es { els with tables := ts ++ [⟨headers, l, c⟩] }).step lines
        (.text line (line + 1) (inlinesOf [] header.toList)) =
        g.showing e es { els with tables := ts ++ [⟨headers ++ [header], l, c⟩] } := by
      simp only [Gathering.step, Gathering.showing, Gathering.change, hhead, htable, Bool.and_self,
        if_true, modifyLast_concat, plainText_inlinesOf hheader, String.ofList_toList,
        linksIn_plain hheader.isSpecial_eq_false, imagesIn_plain hheader.isSpecial_eq_false,
        List.append_nil]
    rw [List.map_cons, rowEvents, List.map_cons, List.foldl_cons, hstep]
    exact (ih hrow).trans (by rw [List.append_assoc, List.singleton_append])

/-- Items of plain text are counted in the list that is open. -/
theorem foldl_step_items (hhead : g.inHead = false) {text : List Char}
    (htext : ∀ c ∈ text, isSpecial c = false) {ordered : Bool} {l c : Nat} {old : List ItemList}
    (hopen : g.openLists.head? = some old.length)
    (numbers : List Nat) : ∀ count,
    (itemEvents [] (numbers.map fun n => [.paragraph n (n + 1) text])).foldl (Gathering.step lines)
        (g.showing e es { els with lists := old ++ [⟨ordered, count, l, c⟩] }) =
      g.showing e es
        { els with lists := old ++ [⟨ordered, count + numbers.length, l, c⟩] } := by
  obtain ⟨places, hplaces⟩ : ∃ places, g.openLists = old.length :: places := by
    cases hopens : g.openLists with
    | nil => rw [hopens] at hopen; cases hopen
    | cons place places =>
      rw [hopens] at hopen
      exact ⟨places, congrArg (· :: places) (Option.some.inj hopen)⟩
  induction numbers with
  | nil => exact fun _ => rfl
  | cons n numbers ih =>
    intro count
    have hitem : (g.showing e es { els with lists := old ++ [⟨ordered, count, l, c⟩] }).step lines
        .item = g.showing e es { els with lists := old ++ [⟨ordered, count + 1, l, c⟩] } := by
      simp only [Gathering.step, Gathering.showing, Gathering.change, hplaces, modifyAt_length]
    have hevents : itemEvents [] ((n :: numbers).map fun n => [.paragraph n (n + 1) text]) =
        .item :: .text n (n + 1) (inlinesOf [] text) ::
          itemEvents [] (numbers.map fun n => [.paragraph n (n + 1) text]) := rfl
    rw [hevents, List.foldl_cons, hitem, List.foldl_cons, step_plain hhead htext, ih,
      List.length_cons, Nat.add_right_comm, Nat.add_assoc count]

theorem Shows.append {ps : List Placeholder} (h : Shows els ps) {p : Placeholder}
    {els' : Elements}
    (codeBlocks : els'.codeBlocks.map CodeBlock.lang =
      els.codeBlocks.map CodeBlock.lang ++ p.lang?.toList)
    (tables : els'.tables.map Table.headers = els.tables.map Table.headers ++ p.headers?.toList)
    (images : els'.images.map (fun i => (i.url, i.alt)) =
      els.images.map (fun i => (i.url, i.alt)) ++ p.image?.toList)
    (lists : els'.lists.map (fun l => (l.ordered, l.itemCount)) =
      els.lists.map (fun l => (l.ordered, l.itemCount)) ++ p.items?.toList) :
    Shows els' (ps ++ [p]) where
  codeBlocks := by rw [codeBlocks, h.codeBlocks, List.filterMap_append]; cases p <;> rfl
  tables := by rw [tables, h.tables, List.filterMap_append]; cases p <;> rfl
  images := by rw [images, h.images, List.filterMap_append]; cases p <;> rfl
  lists := by rw [lists, h.lists, List.filterMap_append]; cases p <;> rfl

/-- The first word of a word is the word. -/
theorem languageOf_word {cs : List Char} (hsome : cs ≠ []) (h : IsWord cs) :
    languageOf cs = cs := by
  rw [languageOf, words, cut_eq_singleton fun c hc => isBlank_of_isAsciiAlnum (h c hc),
    List.filter_cons_of_pos (by simpa using hsome)]
  rfl

/-- An image adds itself. -/
theorem Shows.image {format : String} (hformat : IsWord format.toList) {ps : List Placeholder}
    (h : Shows els ps) (hhead : g.inHead = false) (number : Nat) :
    ∃ els', (blockEvents [] true (Placeholder.block number (.image format))).foldl
        (Gathering.step lines) (g.showing e es els) = g.showing e es els' ∧
      Shows els' (ps ++ [.image format]) := by
  have halt : ∀ c ∈ "TODO: Add alt text".toList, isSpecial c = false := by decide
  have hpieces : inlinesOf [] (writtenImage "TODO: Add alt text".toList
      (Placeholder.imagePath format).toList) =
      [.image (Placeholder.imagePath format).toList "TODO: Add alt text".toList] :=
    inlinesOf_image [] (by decide) halt (Placeholder.plainAddress_imagePath hformat)
  obtain ⟨l, c, himage⟩ : ∃ l c, imagesIn lines number (number + 1)
      [.image (Placeholder.imagePath format).toList "TODO: Add alt text".toList] =
      [⟨Placeholder.imagePath format, "TODO: Add alt text", l, c⟩] :=
    ⟨_, _, by rw [imagesIn, imagesIn, String.ofList_toList, String.ofList_toList]⟩
  rw [Placeholder.block, blockEvents, hpieces]
  refine ⟨{ els with
      images := els.images ++ [⟨Placeholder.imagePath format, "TODO: Add alt text", l, c⟩] }, ?_,
    h.append (List.append_nil _).symm (List.append_nil _).symm List.map_append
      (List.append_nil _).symm⟩
  simp only [List.foldl_cons, List.foldl_nil, Gathering.step, Gathering.showing,
    Gathering.change, hhead, Bool.false_and, Bool.false_eq_true, if_false, linksIn, himage,
    List.append_nil]

/-- A table adds itself, with the cells of its head. -/
theorem Shows.table {headers : List String} (hheaders : ∀ header ∈ headers, PlainText header.toList)
    {ps : List Placeholder} (h : Shows els ps) (htable : g.inTable = false)
    (hhead : g.inHead = false) (number : Nat) :
    ∃ els', (blockEvents [] true (Placeholder.block number (.table headers))).foldl
        (Gathering.step lines) (g.showing e es els) = g.showing e es els' ∧
      Shows els' (ps ++ [.table headers]) := by
  have htodo : ∀ cs ∈ headers.map (fun _ => "TODO".toList), ∀ c ∈ cs, isSpecial c = false :=
    List.forall_mem_map.2 fun _ _ => by decide
  refine ⟨{ els with tables := els.tables ++ [⟨headers, number + 1,
    blockColumn (lineAt lines (number + 1))⟩] }, ?_,
    h.append (List.append_nil _).symm List.map_append (List.append_nil _).symm
      (List.append_nil _).symm⟩
  -- Both flags are set while the head is read; the body is read with one of them.
  have hstart : ((g.showing e es els).step lines (.tableStart number)).step lines .headStart =
      ({ g with inTable := true, inHead := true } : Gathering).showing e es
        { els with tables := els.tables ++ [⟨[], number + 1,
          blockColumn (lineAt lines (number + 1))⟩] } := rfl
  have hbody : ∀ els' : Elements,
      (({ g with inTable := true, inHead := true } : Gathering).showing e es els').step lines
        .headEnd =
      ({ g with inTable := true, inHead := false } : Gathering).showing e es els' :=
    fun _ => rfl
  have hend : ∀ els' : Elements,
      (({ g with inTable := true, inHead := false } : Gathering).showing e es els').step lines
          .tableEnd = g.showing e es els' := fun els' => by
    simp only [Gathering.step, Gathering.showing, htable, hhead]
  simp only [Placeholder.block, blockEvents, List.cons_append, List.foldl_cons,
    List.foldl_append, List.foldl_nil, List.flatMap_singleton]
  rw [hstart, foldl_step_head rfl rfl hheaders, hbody, foldl_step_plain rfl htodo, hend,
    List.nil_append]

/-- A list adds itself, with the number of its items. -/
theorem Shows.list (ordered : Bool) (items : Nat) {ps : List Placeholder} (h : Shows els ps)
    (hhead : g.inHead = false) (number : Nat) :
    ∃ els', (blockEvents [] true (Placeholder.block number (.list ordered items))).foldl
        (Gathering.step lines) (g.showing e es els) = g.showing e es els' ∧
      Shows els' (ps ++ [.list ordered items]) := by
  have htext : ∀ c ∈ "TODO: Add list item".toList, isSpecial c = false := by decide
  refine ⟨{ els with lists := els.lists ++ [⟨ordered, items, number + 1,
    blockColumn (lineAt lines (number + 1))⟩] }, ?_,
    h.append (List.append_nil _).symm (List.append_nil _).symm (List.append_nil _).symm
      (List.map_append)⟩
  have hstart : (g.showing e es els).step lines (.listStart ordered number) =
      ({ g with openLists := els.lists.length :: g.openLists } : Gathering).showing e es
        { els with lists := els.lists ++ [⟨ordered, 0, number + 1,
          blockColumn (lineAt lines (number + 1))⟩] } := rfl
  simp only [Placeholder.block, blockEvents, List.cons_append, List.foldl_cons,
    List.foldl_append, List.foldl_nil]
  rw [hstart, foldl_step_items (g := { g with openLists := els.lists.length :: g.openLists })
    hhead htext rfl, List.length_range', Nat.zero_add]
  rfl

/-- **A placeholder adds its element**, and leaves everything else as it is. -/
theorem Shows.placeholder {p : Placeholder} (hp : p.Legible) {ps : List Placeholder}
    (h : Shows els ps) (htable : g.inTable = false) (hhead : g.inHead = false) (number : Nat) :
    ∃ els', (blockEvents [] true (p.block number)).foldl (Gathering.step lines)
        (g.showing e es els) = g.showing e es els' ∧ Shows els' (ps ++ [p]) := by
  cases p with
  | text =>
    have htext : ∀ c ∈ "TODO: Add content for this section.".toList, isSpecial c = false := by
      decide
    exact ⟨els, step_plain hhead htext _ _, h.append (List.append_nil _).symm
      (List.append_nil _).symm (List.append_nil _).symm (List.append_nil _).symm⟩
  | code lang =>
    have hlang : languageOf (if lang.isEmpty then "text" else lang).toList =
        (if lang.isEmpty then "text" else lang).toList := by
      split_ifs with hempty
      · decide
      · exact languageOf_word (by simpa using hempty) hp
    refine ⟨_, rfl, h.append ?_ (List.append_nil _).symm (List.append_nil _).symm
      (List.append_nil _).symm⟩
    rw [List.map_append, hlang, List.map_singleton, String.ofList_toList]
    rfl
  | image format => exact h.image hp hhead number
  | table headers => exact h.table hp.2 htable hhead number
  | list ordered items => exact h.list ordered items hhead number

end

/-! ## Portions -/

/-- The placeholders among pieces. -/
def placeholdersOf (ps : List TemplatePart) : List Placeholder :=
  ps.filterMap fun
    | .placeholder p => some p
    | _ => none

theorem placeholdersOf_append (ps qs : List TemplatePart) :
    placeholdersOf (ps ++ qs) = placeholdersOf ps ++ placeholdersOf qs := List.filterMap_append

theorem placeholdersOf_fillers (fillers : List Placeholder) :
    placeholdersOf (fillers.map .placeholder) = fillers := by
  rw [placeholdersOf, List.filterMap_map]
  exact List.filterMap_some

/-- A heading and the pieces behind it. -/
structure Portion where
  level : Nat
  title : List Char
  body : List TemplatePart

namespace Portion

/-- The pieces of a portion. -/
def parts (p : Portion) : List TemplatePart :=
  .line (writtenHeading p.level (String.ofList p.title)) :: .gap :: p.body

/-- **A portion that can be read back**, if a heading or nothing stands behind it. -/
structure Sound (p : Portion) : Prop where
  level_pos : 1 ≤ p.level
  level_le : p.level ≤ 6
  title_plain : PlainText p.title
  title_some : p.title ≠ []
  lines : ∀ text, TemplatePart.line text ∉ p.body
  placeholders : ∀ filler ∈ placeholdersOf p.body, filler.Legible
  legible : ∀ rest, Legible rest → HeadingFirst rest → Legible (p.body ++ rest)

/-- **The section that a portion is read as**, without the subsections. -/
structure ReadAs (p : Portion) (s : Section) : Prop where
  level : s.heading.level = p.level
  text : s.heading.text = String.ofList p.title
  shows : Shows s.body.elements (placeholdersOf p.body)
  content : s.body.text.toList = trim (· == '\n') (joinLines (charLinesOf (.gap :: p.body)))
  children : s.children = []

end Portion

theorem legible_portions {portions : List Portion} (h : ∀ p ∈ portions, p.Sound) :
    Legible (portions.flatMap Portion.parts) ∧ HeadingFirst (portions.flatMap Portion.parts) := by
  induction portions with
  | nil => exact ⟨.nil, fun _ h => absurd h (by simp)⟩
  | cons p portions ih =>
    obtain ⟨hp, hportions⟩ := List.forall_mem_cons.1 h
    obtain ⟨hlegible, hfirst⟩ := ih hportions
    refine ⟨?_, fun q hq => ⟨_, (Option.mem_some.1 hq).symm⟩⟩
    exact .heading hp.level_pos hp.level_le hp.title_plain hp.title_some (List.cons_ne_nil _ _)
      (.gap (hp.legible _ hlegible hfirst))

/-! ## Entries -/

theorem charLinesOf_append (ps qs : List TemplatePart) :
    charLinesOf (ps ++ qs) = charLinesOf ps ++ charLinesOf qs := List.flatMap_append

theorem eventsFrom_append (number : Nat) (ps qs : List TemplatePart) :
    eventsFrom number (ps ++ qs) =
      eventsFrom number ps ++ eventsFrom (number + (charLinesOf ps).length) qs := by
  induction ps generalizing number with
  | nil => rfl
  | cons p ps ih =>
    rw [List.cons_append, eventsFrom_cons, ih, eventsFrom_cons, charLinesOf_cons,
      List.length_append, length_charLines, List.append_assoc, Nat.add_assoc]

/-- The entries of portions, the first of which begins at a line. -/
inductive Entries : Nat → List Portion → List Entry → Prop
  | nil {number : Nat} : Entries number [] []
  | cons {number : Nat} {p : Portion} {ps : List Portion} {elements : Elements} {es : List Entry}
      (shows : Shows elements (placeholdersOf p.body))
      (rest : Entries (number + (charLinesOf p.parts).length) ps es) :
      Entries number (p :: ps) (⟨p.level, number, number + 1, p.title, elements⟩ :: es)

section

variable {lines : List (List Char)}

/-- What the pieces behind a heading show is added to its entry. -/
theorem foldl_step_body {g : Gathering} {e : Entry} {es : List Entry} (htable : g.inTable = false)
    (hhead : g.inHead = false) {body : List TemplatePart}
    (hlines : ∀ text, TemplatePart.line text ∉ body)
    (hlegible : ∀ filler ∈ placeholdersOf body, filler.Legible) :
    ∀ {number : Nat} {els : Elements} {shown : List Placeholder}, Shows els shown →
      ∃ els', (eventsFrom number body).foldl (Gathering.step lines) (g.showing e es els) =
        g.showing e es els' ∧ Shows els' (shown ++ placeholdersOf body) := by
  induction body with
  | nil => exact fun {_ els _} h => ⟨els, rfl, by rwa [placeholdersOf, List.filterMap_nil,
      List.append_nil]⟩
  | cons q body ih =>
    intro number els shown h
    have hlines' : ∀ text, TemplatePart.line text ∉ body := fun text ht =>
      hlines text (List.mem_cons_of_mem _ ht)
    cases q with
    | line text => exact absurd List.mem_cons_self (hlines text)
    | comment text => exact ih hlines' hlegible h
    | gap => exact ih hlines' hlegible h
    | placeholder p =>
      obtain ⟨hp, hrest⟩ := List.forall_mem_cons.1 hlegible
      obtain ⟨els', hfold, hshows⟩ : ∃ els', (blockEvents [] true (p.block number)).foldl
          (Gathering.step lines) (g.showing e es els) = g.showing e es els' ∧
            Shows els' (shown ++ [p]) := h.placeholder hp htable hhead number
      obtain ⟨els'', hfold', hshows'⟩ := ih hlines' hrest hshows
      refine ⟨els'', ?_, by rwa [List.append_assoc] at hshows'⟩
      rw [eventsFrom_cons, List.foldl_append, TemplatePart.blocks, eventsOf, eventsOf,
        List.append_nil, hfold]
      exact hfold'

/-- **A portion is gathered as one entry.** -/
theorem foldl_step_portion {g : Gathering} (hlists : g.openLists = []) (htable : g.inTable = false)
    (hhead : g.inHead = false) {p : Portion} (hp : p.Sound) (number : Nat) :
    ∃ els, (eventsFrom number p.parts).foldl (Gathering.step lines) g =
      { g with entries := ⟨p.level, number, number + 1, p.title, els⟩ :: g.entries } ∧
        Shows els (placeholdersOf p.body) := by
  have hevents : eventsFrom number p.parts =
      .heading p.level number (number + 1) (inlinesOf [] p.title) ::
        eventsFrom (number + 1 + 1) p.body := by
    rw [Portion.parts, eventsFrom_cons, TemplatePart.blocks, toList_writtenHeading,
      atx?_written hp.level_pos hp.level_le (hp.title_plain.headingText hp.title_some)]
    rfl
  have hstep : g.step lines (.heading p.level number (number + 1) (inlinesOf [] p.title)) =
      g.showing ⟨p.level, number, number + 1, p.title, {}⟩ g.entries {} := by
    rw [Gathering.step, plainText_inlinesOf hp.title_plain, ← hlists]
    rfl
  rw [hevents, List.foldl_cons, hstep]
  exact foldl_step_body htable hhead hp.lines hp.placeholders shows_nil

/-- **Portions are gathered as entries.** -/
theorem foldl_step_portions {portions : List Portion} (h : ∀ p ∈ portions, p.Sound) :
    ∀ {g : Gathering} (number : Nat), g.openLists = [] → g.inTable = false → g.inHead = false →
      ∃ es, (eventsFrom number (portions.flatMap Portion.parts)).foldl (Gathering.step lines) g =
        { g with entries := es.reverse ++ g.entries } ∧ Entries number portions es := by
  induction portions with
  | nil => exact fun _ _ _ _ => ⟨[], rfl, .nil⟩
  | cons p portions ih =>
    intro g number hlists htable hhead
    obtain ⟨hp, hportions⟩ := List.forall_mem_cons.1 h
    obtain ⟨els, hfold, hshows⟩ : ∃ els,
        (eventsFrom number p.parts).foldl (Gathering.step lines) g =
          { g with entries := ⟨p.level, number, number + 1, p.title, els⟩ :: g.entries } ∧
        Shows els (placeholdersOf p.body) := foldl_step_portion hlists htable hhead hp number
    obtain ⟨es, hfold', hentries⟩ := ih hportions
      (g := { g with entries := ⟨p.level, number, number + 1, p.title, els⟩ :: g.entries })
      (number + (charLinesOf p.parts).length) hlists htable hhead
    refine ⟨_, ?_, .cons hshows hentries⟩
    rw [List.flatMap_cons, eventsFrom_append, List.foldl_append, hfold, hfold', List.reverse_cons,
      List.append_assoc, List.singleton_append]

end

/-! ## Sections -/

/-- The region behind a heading up to the next one. -/
theorem region_portion (before : List (List Char)) (p : Portion) (behind : List (List Char)) :
    (region (before ++ charLinesOf p.parts ++ behind) (before.length + 1)
      (before.length + (charLinesOf p.parts).length)).toList =
      trim (· == '\n') (joinLines (charLinesOf (.gap :: p.body))) := by
  have htake : (before ++ charLinesOf p.parts ++ behind).take
      (before.length + (charLinesOf p.parts).length) = before ++ charLinesOf p.parts := by
    rw [← List.length_append]
    exact List.take_left
  have hdrop : (before ++ charLinesOf p.parts).drop (before.length + 1) =
      charLinesOf (.gap :: p.body) := by
    rw [List.drop_append, List.drop_eq_nil_of_le (by omega), Nat.add_sub_cancel_left]
    rfl
  rw [region, String.toList_ofList, htake, hdrop]

theorem Entries.nextLine_eq {number : Nat} {portions : List Portion} {es : List Entry}
    (h : Entries number portions es) {total : Nat}
    (htotal : total = number + (charLinesOf (portions.flatMap Portion.parts)).length) :
    nextLine total es = number := by
  cases h with
  | nil => exact htotal
  | cons => rfl

/-- **The entries of portions are read as sections.** -/
theorem readAs_flatSections {number : Nat} {portions : List Portion} {es : List Entry}
    (h : Entries number portions es) : ∀ before : List (List Char), before.length = number →
      List.Forall₂ Portion.ReadAs portions
        (flatSections (before ++ charLinesOf (portions.flatMap Portion.parts)) es) := by
  induction h with
  | nil => exact fun _ _ => .nil
  | @cons number p ps elements es shows rest ih =>
    rintro before rfl
    rw [List.flatMap_cons, charLinesOf_append, ← List.append_assoc]
    refine .cons ⟨rfl, rfl, shows, ?_, rfl⟩ (ih _ List.length_append)
    rw [text_sectionOf, rest.nextLine_eq (by rw [List.length_append, List.length_append])]
    exact region_portion before p _

/-- The document of a text without front matter. -/
theorem parseDocument_eq_ok {text : String} (hsplit : splitFrontMatter text = .ok (none, text))
    {lines : List (List Char)} (hlines : cutOn '\n' text.toList = lines) {entries : List Entry}
    (hgather : gather lines (documentEvents text.toList) = ({}, entries)) (path : String) :
    ∃ preamble, parseDocument text path =
      .ok ⟨path, text, none, preamble, nest (flatSections lines entries)⟩ := by
  rw [parseDocument, hsplit]
  dsimp only [bind, Except.bind]
  rw [hlines, sectionsOf, hgather]
  exact ⟨_, rfl⟩

/-- **The document of a template has one section for each portion of it.** -/
theorem parseDocument_textOf {portions : List Portion} (h : ∀ p ∈ portions, p.Sound)
    {note : String} (hnote : Quiet note) (path : String) :
    ∃ d flat, parseDocument
        (textOf (.comment note :: .gap :: portions.flatMap Portion.parts)) path = .ok d ∧
      d.path = path ∧ d.sections = nest flat ∧ List.Forall₂ Portion.ReadAs portions flat := by
  obtain ⟨hportions, -⟩ := legible_portions h
  have hlegible : Legible (.comment note :: .gap :: portions.flatMap Portion.parts) :=
    .comment hnote (List.cons_ne_nil _ _) (.gap hportions)
  have hsome := List.cons_ne_nil (TemplatePart.comment note)
    (.gap :: portions.flatMap Portion.parts)
  -- The comment and the empty line at the front stand before all sections, and show nothing.
  obtain ⟨es, hfold, hentries⟩ : ∃ es, (eventsFrom 2 (portions.flatMap Portion.parts)).foldl
      (Gathering.step (charLinesOf (.comment note :: .gap :: portions.flatMap Portion.parts))) {} =
        { entries := es.reverse ++ [] } ∧ Entries 2 portions es :=
    foldl_step_portions h 2 rfl rfl rfl
  have hgather : gather (charLinesOf (.comment note :: .gap :: portions.flatMap Portion.parts))
      (eventsFrom 0 (.comment note :: .gap :: portions.flatMap Portion.parts)) = ({}, es) := by
    have hevents : eventsFrom 0 (.comment note :: .gap :: portions.flatMap Portion.parts) =
        eventsFrom 2 (portions.flatMap Portion.parts) := rfl
    rw [gather, hevents, hfold, List.append_nil, List.reverse_reverse]
  have hread := readAs_flatSections hentries (charLinesOf [.comment note, .gap]) rfl
  rw [← charLinesOf_append] at hread
  obtain ⟨preamble, hparse⟩ := parseDocument_eq_ok
    (splitFrontMatter_of_comment (hlegible.cutOn_textOf hsome)) (hlegible.cutOn_textOf hsome)
    ((congrArg (gather _) (hlegible.documentEvents_textOf hsome)).trans hgather) path
  exact ⟨_, _, hparse, rfl, rfl, hread⟩

end Outline

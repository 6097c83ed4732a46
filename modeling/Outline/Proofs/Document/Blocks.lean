import Outline.Proofs.Document.Events

/-!
# Where blocks are recorded

Fences, lists and tables are recorded while the events of a text go by: a list waits for its items and
for the lists inside of them, a table for the texts of its head. **If the events are well nested, each
of these blocks is recorded once, in order, in the section of the last heading before it; a list counts
its own items, and a table has the texts of its own head** (`blocksRecorded_sectionsOf`).

* `elementsAmong`: the elements of events;
* `WellNested.foldl`: well-nested events add their elements to what was gathered;
* `Gathering.foldl_behind`: behind a heading they are gathered as before the first one;
* `BlocksRecorded`: where the blocks of events are recorded.
-/

namespace Outline

open Markdown (Event Inline documentEvents)

variable {lines : List (List Char)} {top : Bool} {events es cells inside rest : List Event}

/-! ## Elements -/

/-- The links in the texts of events, but for the headings of sections. -/
def textLinks (lines : List (List Char)) (events : List Event) : List Link :=
  events.flatMap fun
    | .text first stop pieces => linksIn lines first stop pieces
    | _ => []

/-- The images in the texts of events, but for the headings of sections. -/
def textImages (lines : List (List Char)) (events : List Event) : List Image :=
  events.flatMap fun
    | .text first stop pieces => imagesIn lines first stop pieces
    | _ => []

/-- The elements of events. -/
def elementsAmong (lines : List (List Char)) (events : List Event) : Elements where
  codeBlocks := codeBlocksAmong lines events
  tables := tablesAmong lines events
  links := textLinks lines events
  images := textImages lines events
  lists := listsAmong lines events

theorem modifyAt_eq_modify {α : Type} (f : α → α) (place : Nat) (l : List α) :
    modifyAt f place l = l.modify place f := by
  induction l generalizing place with
  | nil => cases place <;> rfl
  | cons a l ih =>
    cases place with
    | zero => rfl
    | succ place => exact congrArg (a :: ·) (ih place)

theorem modifyAt_append {α : Type} (f : α → α) {place : Nat} {l : List α} (h : place < l.length)
    (l' : List α) : modifyAt f place (l ++ l') = modifyAt f place l ++ l' := by
  induction l generalizing place with
  | nil => exact absurd h (Nat.not_lt_zero place)
  | cons a l ih =>
    cases place with
    | zero => rfl
    | succ place => exact congrArg (a :: ·) (ih (Nat.lt_of_succ_lt_succ h))

namespace Elements

/-- The elements of two parts of a section. -/
def append (e e' : Elements) : Elements :=
  ⟨e.codeBlocks ++ e'.codeBlocks, e.tables ++ e'.tables, e.links ++ e'.links, e.images ++ e'.images,
    e.lists ++ e'.lists⟩

theorem append_assoc (e e' e'' : Elements) :
    (e.append e').append e'' = e.append (e'.append e'') := by
  simp only [append, List.append_assoc]

theorem append_empty (e : Elements) : e.append {} = e := by
  simp only [append, List.append_nil]

/-- More items in the innermost open list. -/
def countItems (e : Elements) (openLists : List Nat) (n : Nat) : Elements :=
  match openLists with
  | [] => e
  | place :: _ =>
    { e with lists := modifyAt (fun l => { l with itemCount := l.itemCount + n }) place e.lists }

variable {openLists : List Nat} {e e' : Elements}

theorem countItems_zero (e : Elements) (openLists : List Nat) : e.countItems openLists 0 = e := by
  cases openLists with
  | nil => rfl
  | cons place openLists =>
    refine congrArg (fun l => { e with lists := l }) ?_
    rw [modifyAt_eq_modify]
    exact List.modify_id place e.lists

theorem countItems_countItems (e : Elements) (openLists : List Nat) (m n : Nat) :
    (e.countItems openLists m).countItems openLists n = e.countItems openLists (m + n) := by
  cases openLists with
  | nil => rfl
  | cons place openLists =>
    simp only [countItems, modifyAt_eq_modify, List.modify_modify_eq, Function.comp_def,
      Nat.add_assoc]

theorem length_countItems (e : Elements) (openLists : List Nat) (n : Nat) :
    (e.countItems openLists n).lists.length = e.lists.length := by
  cases openLists with
  | nil => rfl
  | cons place openLists => simp only [countItems, modifyAt_eq_modify, List.length_modify]

/-- The items of an open list count in it, whatever is recorded behind it. -/
theorem countItems_append (h : ∀ place ∈ openLists.head?, place < e.lists.length) (n : Nat) :
    (e.append e').countItems openLists n = (e.countItems openLists n).append e' := by
  cases openLists with
  | nil => rfl
  | cons place openLists => simp only [countItems, append, modifyAt_append _ (h place rfl)]

/-- The place of an open list is one among more lists, too. -/
theorem lt_append (h : ∀ place ∈ openLists.head?, place < e.lists.length) (e' : Elements) :
    ∀ place ∈ openLists.head?, place < (e.append e').lists.length := fun place hplace =>
  (h place hplace).trans_le (List.sublist_append_left _ _).length_le

/-- The items of the list that began last. -/
theorem countItems_last (e : Elements) (l : ItemList) (openLists : List Nat) (n : Nat) :
    (e.append { lists := [l] }).countItems (e.lists.length :: openLists) n =
      e.append { lists := [{ l with itemCount := l.itemCount + n }] } := by
  simp only [countItems, append, modifyAt_length]

end Elements

theorem textLinks_append (events events' : List Event) :
    textLinks lines (events ++ events') = textLinks lines events ++ textLinks lines events' :=
  List.flatMap_append

theorem textImages_append (events events' : List Event) :
    textImages lines (events ++ events') = textImages lines events ++ textImages lines events' :=
  List.flatMap_append

/-- **The elements of well-nested events and of others behind them.** -/
theorem WellNested.elementsAmong_append (h : WellNested top inside) (rest : List Event) :
    elementsAmong lines (inside ++ rest) =
      (elementsAmong lines inside).append (elementsAmong lines rest) := by
  simp only [elementsAmong, Elements.append, h.listsAmong_append, h.tablesAmong_append,
    codeBlocksAmong, List.filterMap_append, textLinks_append, textImages_append]

/-- The elements of a list, of what is inside of it and of what is behind it. -/
theorem WellNested.elementsAmong_list (h : WellNested top inside) (ordered : Bool) (first : Nat)
    (rest : List Event) :
    elementsAmong lines (.listStart ordered first :: (inside ++ .listEnd :: rest)) =
      ((({ lists := [⟨ordered, directItems 0 inside, first + 1, columnOn lines first⟩] } :
        Elements).append (elementsAmong lines inside)).append (elementsAmong lines rest)) := by
  have hinside : elementsAmong lines (inside ++ .listEnd :: rest) =
      (elementsAmong lines inside).append (elementsAmong lines rest) := h.elementsAmong_append _
  have hlist : elementsAmong lines (.listStart ordered first :: (inside ++ .listEnd :: rest)) =
      ({ lists := [⟨ordered, directItems 0 (inside ++ .listEnd :: rest), first + 1,
        columnOn lines first⟩] } : Elements).append
          (elementsAmong lines (inside ++ .listEnd :: rest)) := rfl
  rw [hlist, hinside, h.directItems_listEnd, Elements.append_assoc]

/-- The elements of a table and of what is behind it. -/
theorem InTable.elementsAmong_table (h : InTable inside) (first : Nat) (rest : List Event) :
    elementsAmong lines (.tableStart first :: (inside ++ .tableEnd :: rest)) =
      ({ tables := [⟨headTexts false inside, first + 1, columnOn lines first⟩]
         links := textLinks lines inside
         images := textImages lines inside } : Elements).append (elementsAmong lines rest) := by
  have hblocks : codeBlocksAmong lines (.tableStart first :: (inside ++ .tableEnd :: rest)) =
      codeBlocksAmong lines rest := (blocks_inner h.isInner _).1
  have hlists : listsAmong lines (.tableStart first :: (inside ++ .tableEnd :: rest)) =
      listsAmong lines rest := (blocks_inner h.isInner _).2.1
  have hlinks : textLinks lines (.tableStart first :: (inside ++ .tableEnd :: rest)) =
      textLinks lines inside ++ textLinks lines rest := textLinks_append inside _
  have himages : textImages lines (.tableStart first :: (inside ++ .tableEnd :: rest)) =
      textImages lines inside ++ textImages lines rest := textImages_append inside _
  simp only [elementsAmong, Elements.append, h.tablesAmong_cons, hblocks, hlists, hlinks, himages,
    List.nil_append, List.singleton_append]

/-! ## Gathering -/

/-- Elements with the links and images of events behind theirs. -/
def Elements.withTexts (e : Elements) (lines : List (List Char)) (events : List Event) : Elements :=
  { e with
    links := e.links ++ textLinks lines events
    images := e.images ++ textImages lines events }

/-- Elements with one more table. -/
def Elements.withTable (e : Elements) (t : Table) : Elements := { e with tables := e.tables ++ [t] }

variable {e : Elements} {openLists : List Nat}

/-- The texts in the head of a table are its headers. -/
theorem foldl_cells (hcells : ∀ e ∈ cells, e.isText = true) (t : Table) :
    cells.foldl (Gathering.step lines) ⟨e.withTable t, [], openLists, true, true⟩ =
      ⟨(e.withTexts lines cells).withTable { t with headers := t.headers ++ headTexts true cells },
        [], openLists, true, true⟩ := by
  induction cells generalizing e t with
  | nil => simp [Elements.withTexts, textLinks, textImages, headTexts]
  | cons c cells ih =>
    obtain ⟨hc, hrest⟩ := List.forall_mem_cons.1 hcells
    cases c with
    | text first stop pieces =>
      have hstep : Gathering.step lines ⟨e.withTable t, [], openLists, true, true⟩
          (.text first stop pieces) =
            ⟨(e.withTexts lines [.text first stop pieces]).withTable
              { t with headers := t.headers ++ [String.ofList (Markdown.plainText pieces)] },
              [], openLists, true, true⟩ := by
        simp [Gathering.step, Gathering.change, Elements.withTable, Elements.withTexts,
          modifyLast_concat, textLinks, textImages]
      rw [List.foldl_cons, hstep, ih hrest]
      simp [Elements.withTexts, headTexts, textLinks, textImages]
    | _ => cases hc

/-- **The events in a table** add their texts, and those in its head as headers. -/
theorem InTable.foldl (h : InTable inside) (e : Elements) (openLists : List Nat) (t : Table) :
    inside.foldl (Gathering.step lines) ⟨e.withTable t, [], openLists, true, false⟩ =
      ⟨(e.withTexts lines inside).withTable
        { t with headers := t.headers ++ headTexts false inside }, [], openLists, true, false⟩ := by
  induction h generalizing e t with
  | nil => simp [Elements.withTexts, textLinks, textImages, headTexts]
  | @text first stop pieces es _ ih =>
    have hstep : Gathering.step lines ⟨e.withTable t, [], openLists, true, false⟩
        (.text first stop pieces) =
          ⟨(e.withTexts lines [.text first stop pieces]).withTable t,
            [], openLists, true, false⟩ := by
      simp [Gathering.step, Gathering.change, Elements.withTable, Elements.withTexts, textLinks,
        textImages]
    rw [List.foldl_cons, hstep, ih]
    simp [Elements.withTexts, headTexts, textLinks, textImages]
  | @head cells es hcells _ ih =>
    have hstart : Gathering.step lines ⟨e.withTable t, [], openLists, true, false⟩ .headStart =
        ⟨e.withTable t, [], openLists, true, true⟩ := rfl
    have hend (e : Elements) : Gathering.step lines ⟨e, [], openLists, true, true⟩ .headEnd =
        ⟨e, [], openLists, true, false⟩ := rfl
    rw [List.foldl_cons, hstart, List.foldl_append, foldl_cells hcells, List.foldl_cons, hend, ih]
    have hhead : headTexts false (.headStart :: (cells ++ .headEnd :: es)) =
        headTexts true cells ++ headTexts false es := headTexts_cells hcells _
    simp [Elements.withTexts, hhead, textLinks, textImages]

theorem Gathering.step_text (e : Elements) (openLists : List Nat) (first stop : Nat)
    (pieces : List Inline) : Gathering.step lines ⟨e, [], openLists, false, false⟩
      (.text first stop pieces) =
        ⟨e.append (elementsAmong lines [.text first stop pieces]), [], openLists, false, false⟩ := by
  simp [Gathering.step, Gathering.change, Elements.append, elementsAmong, codeBlocksAmong,
    tablesAmong, listsAmong, textLinks, textImages]

theorem Gathering.step_fence (e : Elements) (openLists : List Nat) (first : Nat) (info : List Char) :
    Gathering.step lines ⟨e, [], openLists, false, false⟩ (.fence first info) =
      ⟨e.append (elementsAmong lines [.fence first info]), [], openLists, false, false⟩ := by
  simp [Gathering.step, Gathering.change, Elements.append, elementsAmong, codeBlocksAmong,
    tablesAmong, listsAmong, textLinks, textImages, columnOn]

theorem Gathering.step_item (e : Elements) (openLists : List Nat) :
    Gathering.step lines ⟨e, [], openLists, false, false⟩ .item =
      ⟨e.countItems openLists 1, [], openLists, false, false⟩ := by
  cases openLists <;> rfl

theorem Gathering.step_listStart (e : Elements) (openLists : List Nat) (ordered : Bool) (first : Nat) :
    Gathering.step lines ⟨e, [], openLists, false, false⟩ (.listStart ordered first) =
      ⟨e.append { lists := [⟨ordered, 0, first + 1, columnOn lines first⟩] }, [],
        e.lists.length :: openLists, false, false⟩ := by
  simp [Gathering.step, Gathering.change, Gathering.current, Elements.append, columnOn]

/-- **Well-nested events add their elements to what was gathered**, and the items among them count in
the list that is open, if there is any. -/
theorem WellNested.foldl (h : WellNested top es) (hplain : ∀ event ∈ es, event.isHeading = false)
    (hopen : ∀ place ∈ openLists.head?, place < e.lists.length) :
    es.foldl (Gathering.step lines) ⟨e, [], openLists, false, false⟩ =
      ⟨(e.countItems openLists (directItems 0 es)).append (elementsAmong lines es), [], openLists,
        false, false⟩ := by
  induction h generalizing e openLists with
  | nil =>
    rw [List.foldl_nil, directItems, Elements.countItems_zero]
    exact congrArg (Gathering.mk · [] openLists false false) e.append_empty.symm
  | heading =>
    cases hplain _ List.mem_cons_self
  | @text _ first stop pieces es _ ih =>
    have hself : WellNested true [.text first stop pieces] := .text .nil
    rw [List.foldl_cons, Gathering.step_text,
      ih (List.forall_mem_cons.1 hplain).2 (Elements.lt_append hopen _),
      Elements.countItems_append hopen, Elements.append_assoc, ← hself.elementsAmong_append]
    rfl
  | @fence _ first info es _ ih =>
    have hself : WellNested true [.fence first info] := .fence .nil
    rw [List.foldl_cons, Gathering.step_fence,
      ih (List.forall_mem_cons.1 hplain).2 (Elements.lt_append hopen _),
      Elements.countItems_append hopen, Elements.append_assoc, ← hself.elementsAmong_append]
    rfl
  | @item es _ ih =>
    have hopen' : ∀ place ∈ openLists.head?, place < (e.countItems openLists 1).lists.length := by
      rwa [Elements.length_countItems]
    rw [List.foldl_cons, Gathering.step_item, ih (List.forall_mem_cons.1 hplain).2 hopen',
      Elements.countItems_countItems, Nat.add_comm]
    rfl
  | @list _ ordered first inside es hinside _ ihinside ih =>
    obtain ⟨-, hplaininside, -, hplain⟩ := forall_mem_enclosed.1 hplain
    -- what is inside of the list is gathered with its place on top, where its own items count
    have hlast : ∀ place ∈ (e.lists.length :: openLists).head?, place < (e.append
        { lists := [⟨ordered, 0, first + 1, columnOn lines first⟩] }).lists.length := by
      rintro place hplace
      cases hplace
      simp [Elements.append]
    have hend (e : Elements) (place : Nat) :
        Gathering.step lines ⟨e, [], place :: openLists, false, false⟩ .listEnd =
          ⟨e, [], openLists, false, false⟩ := rfl
    have hitems : directItems 0 (.listStart ordered first :: (inside ++ .listEnd :: es)) =
        directItems 0 es := by
      simp only [directItems, (hinside.directItems_append _).2]
    rw [List.foldl_cons, Gathering.step_listStart, List.foldl_append, ihinside hplaininside hlast,
      Elements.countItems_last, List.foldl_cons, hend, Elements.append_assoc,
      ih hplain (Elements.lt_append hopen _), Elements.countItems_append hopen,
      Elements.append_assoc, hinside.elementsAmong_list, hitems, Nat.zero_add]
  | @table _ first inside es hinside _ ih =>
    obtain ⟨-, -, -, hplain⟩ := forall_mem_enclosed.1 hplain
    have hstart : Gathering.step lines ⟨e, [], openLists, false, false⟩ (.tableStart first) =
        ⟨e.withTable ⟨[], first + 1, columnOn lines first⟩, [], openLists, true, false⟩ := rfl
    have hend (e : Elements) : Gathering.step lines ⟨e, [], openLists, true, false⟩ .tableEnd =
        ⟨e, [], openLists, false, false⟩ := rfl
    have hitems : directItems 0 (.tableStart first :: (inside ++ .tableEnd :: es)) =
        directItems 0 es := directItems_inner hinside.isInner (.tableEnd :: es) 0
    have hadd : (e.withTexts lines inside).withTable
          ⟨headTexts false inside, first + 1, columnOn lines first⟩ =
        e.append { tables := [⟨headTexts false inside, first + 1, columnOn lines first⟩]
                   links := textLinks lines inside
                   images := textImages lines inside } := by
      simp [Elements.withTexts, Elements.withTable, Elements.append]
    rw [List.foldl_cons, hstart, List.foldl_append, hinside.foldl, List.foldl_cons, hend,
      List.nil_append, hadd, ih hplain (Elements.lt_append hopen _),
      Elements.countItems_append hopen, Elements.append_assoc, hinside.elementsAmong_table, hitems]

/-! ## Passages -/

/-- What is gathered behind a heading from events that are gathered as `g` before the first one. -/
def Gathering.behind (g : Gathering) (preamble : Elements) (entry : Entry) (entries : List Entry) :
    Gathering :=
  { g with preamble := preamble, entries := { entry with elements := g.preamble } :: entries }

/-- An event that is no heading is gathered behind a heading as it is before the first one. -/
theorem Gathering.step_behind (lines : List (List Char)) {g : Gathering} (hg : g.entries = [])
    {event : Event} (hevent : event.isHeading = false) (preamble : Elements) (entry : Entry)
    (entries : List Entry) : (g.step lines event).entries = [] ∧
      (g.behind preamble entry entries).step lines event =
        (g.step lines event).behind preamble entry entries := by
  obtain ⟨e, gathered, openLists, inTable, inHead⟩ := g
  cases hg
  cases event with
  | heading => cases hevent
  | item => cases openLists <;> exact ⟨rfl, rfl⟩
  | _ => exact ⟨rfl, rfl⟩

/-- Events without headings are gathered behind a heading as they are before the first one. -/
theorem Gathering.foldl_behind {g : Gathering} (hg : g.entries = [])
    (hplain : ∀ event ∈ es, event.isHeading = false) (preamble : Elements) (entry : Entry)
    (entries : List Entry) :
    es.foldl (Gathering.step lines) (g.behind preamble entry entries) =
      (es.foldl (Gathering.step lines) g).behind preamble entry entries := by
  induction es generalizing g with
  | nil => rfl
  | cons event es ih =>
    obtain ⟨hevent, hes⟩ := List.forall_mem_cons.1 hplain
    obtain ⟨hentries, hstep⟩ := g.step_behind lines hg hevent preamble entry entries
    rw [List.foldl_cons, List.foldl_cons, hstep, ih hentries hes]

/-- The entry of a passage. -/
def Passage.entry (lines : List (List Char)) (p : Passage) : Entry :=
  ⟨p.level, p.first, p.stop, Markdown.plainText p.title, elementsAmong lines p.behind⟩

/-- Before the first heading, the elements of events are gathered. -/
theorem Unheaded.foldl (h : Unheaded es) :
    es.foldl (Gathering.step lines) {} = { preamble := elementsAmong lines es } := by
  have hstart : ∀ place ∈ ([] : List Nat).head?, place < ({} : Elements).lists.length := by
    rintro place ⟨⟩
  exact h.wellNested.foldl h.plain hstart

/-- Each passage becomes an entry with its elements. -/
theorem foldl_passages {passages : List Passage} (h : ∀ p ∈ passages, Unheaded p.behind)
    (preamble : Elements) (entries : List Entry) :
    (passages.flatMap Passage.events).foldl (Gathering.step lines)
        ⟨preamble, entries, [], false, false⟩ =
      ⟨preamble, (passages.map (Passage.entry lines)).reverse ++ entries, [], false, false⟩ := by
  induction passages generalizing entries with
  | nil => rfl
  | cons p passages ih =>
    obtain ⟨hp, hpassages⟩ := List.forall_mem_cons.1 h
    have hheading : Gathering.step lines ⟨preamble, entries, [], false, false⟩
        (.heading p.level p.first p.stop p.title) =
          ({} : Gathering).behind preamble (p.entry lines) entries := rfl
    -- no list and no table is open before a heading, so a passage begins with nothing open
    have hpassage : p.events.foldl (Gathering.step lines) ⟨preamble, entries, [], false, false⟩ =
        ⟨preamble, p.entry lines :: entries, [], false, false⟩ := by
      rw [Passage.events, List.foldl_cons, hheading, Gathering.foldl_behind rfl hp.plain, hp.foldl]
      rfl
    rw [List.flatMap_cons, List.foldl_append, hpassage, ih hpassages, List.map_cons,
      List.reverse_cons, List.append_assoc, List.singleton_append]

/-- **What is gathered from well-nested events**: the elements before the first heading, and an entry
for each passage. -/
theorem gather_passages (lines : List (List Char)) {front : List Event} {passages : List Passage}
    (hfront : Unheaded front) (h : ∀ p ∈ passages, Unheaded p.behind) :
    gather lines (front ++ passages.flatMap Passage.events) =
      (elementsAmong lines front, passages.map (Passage.entry lines)) := by
  rw [gather, List.foldl_append, hfront.foldl, foldl_passages h]
  simp only [List.append_nil, List.reverse_reverse]

/-! ## Sections -/

/-- A section with the heading of a passage and the elements of the events behind it. -/
structure Passage.HeldBy (p : Passage) (lines : List (List Char)) (h : Heading) (b : Body) :
    Prop where
  level : h.level = p.level
  text : h.text = String.ofList (Markdown.plainText p.title)
  line : h.line = p.first + 1
  elements : b.elements = elementsAmong lines p.behind

/-- **Where the blocks of events are recorded.** The headings cut the events into passages. The
preamble has the elements before the first heading, and each section those behind its own heading, so
that in all each fence, each list and each table is recorded once, in order. -/
structure BlocksRecorded (lines : List (List Char)) (events : List Event) (b : Body)
    (ss : List Section) (front : List Event) (passages : List Passage) : Prop where
  split : events = front ++ passages.flatMap Passage.events
  plain : ∀ e ∈ front ++ passages.flatMap (·.behind), e.isHeading = false
  preamble : b.elements = elementsAmong lines front
  sections : List.Forall₂ (fun p s => p.HeldBy lines s.heading s.body) passages (walkAll ss)
  codeBlocks : b.elements.codeBlocks ++ (walkAll ss).flatMap (·.body.elements.codeBlocks) =
    codeBlocksAmong lines events
  lists : b.elements.lists ++ (walkAll ss).flatMap (·.body.elements.lists) =
    listsAmong lines events
  tables : b.elements.tables ++ (walkAll ss).flatMap (·.body.elements.tables) =
    tablesAmong lines events

theorem forall₂_flatSections_entry (passages : List Passage) :
    List.Forall₂ (fun p s => p.HeldBy lines s.heading s.body) passages
      (flatSections lines (passages.map (Passage.entry lines))) := by
  induction passages with
  | nil => exact .nil
  | cons p passages ih => exact .cons ⟨rfl, rfl, rfl, rfl⟩ ih

/-- The members that sections have in a row are those among the events. -/
theorem append_flatMap_of_heldBy {α : Type} (list : Elements → List α) {among : List Event → List α}
    (hlist : ∀ es, list (elementsAmong lines es) = among es)
    (happend : ∀ {es}, WellNested true es → ∀ es', among (es ++ es') = among es ++ among es')
    (hheading : ∀ p : Passage, among p.events = among p.behind) {front : List Event}
    (hfront : Unheaded front) {passages : List Passage} (hpassages : ∀ p ∈ passages, Unheaded p.behind)
    {sections : List Section}
    (h : List.Forall₂ (fun p s => p.HeldBy lines s.heading s.body) passages sections) :
    list (elementsAmong lines front) ++ sections.flatMap (fun s => list s.body.elements) =
      among (front ++ passages.flatMap Passage.events) := by
  rw [happend hfront.wellNested, hlist]
  refine congrArg (among front ++ ·) ?_
  induction h with
  | nil =>
    have hnil : among [] = [] := List.append_right_eq_self.1 (happend .nil []).symm
    exact hnil.symm
  | @cons p s passages sections hs _ ih =>
    obtain ⟨hp, hrest⟩ := List.forall_mem_cons.1 hpassages
    have hevents : WellNested true p.events := .heading hp.wellNested
    rw [List.flatMap_cons, List.flatMap_cons, happend hevents, hheading, hs.elements, hlist,
      ih hrest]

/-- **What passages without headings are recorded as.** -/
theorem blocksRecorded_of_passages (lines : List (List Char)) {front : List Event}
    {passages : List Passage} (hfront : Unheaded front)
    (hpassages : ∀ p ∈ passages, Unheaded p.behind) :
    BlocksRecorded lines (front ++ passages.flatMap Passage.events)
      (sectionsOf lines (front ++ passages.flatMap Passage.events)).1
      (sectionsOf lines (front ++ passages.flatMap Passage.events)).2 front passages := by
  have hgather := gather_passages lines hfront hpassages
  have hpreamble : (sectionsOf lines (front ++ passages.flatMap Passage.events)).1.elements =
      elementsAmong lines front := by
    simp only [sectionsOf, hgather]
  have hsections : List.Forall₂ (fun p s => p.HeldBy lines s.heading s.body) passages
      (walkAll (sectionsOf lines (front ++ passages.flatMap Passage.events)).2) := by
    simp only [sectionsOf, hgather]
    exact forall₂_nest (forall₂_flatSections_entry passages)
  refine ⟨rfl, ?_, hpreamble, hsections, ?_, ?_, ?_⟩
  · rw [List.forall_mem_append, List.forall_mem_flatMap]
    exact ⟨hfront.plain, fun p hp => (hpassages p hp).plain⟩
  · rw [hpreamble]
    exact append_flatMap_of_heldBy Elements.codeBlocks (fun _ => rfl)
      (fun _ _ => List.filterMap_append) (fun _ => rfl) hfront hpassages hsections
  · rw [hpreamble]
    exact append_flatMap_of_heldBy Elements.lists (fun _ => rfl)
      (fun h => h.listsAmong_append) (fun _ => rfl) hfront hpassages hsections
  · rw [hpreamble]
    exact append_flatMap_of_heldBy Elements.tables (fun _ => rfl)
      (fun h => h.tablesAmong_append) (fun _ => rfl) hfront hpassages hsections

/-- **Each fence, each list and each table is recorded once, in order, in the section of the last
heading before it**, with the items and the headers that are its own. -/
theorem blocksRecorded_sectionsOf (h : WellNested true events) : ∃ front passages,
    BlocksRecorded lines events (sectionsOf lines events).1 (sectionsOf lines events).2
      front passages := by
  obtain ⟨front, passages, rfl, hfront, hpassages⟩ := h.exists_passages rfl
  exact ⟨front, passages, blocksRecorded_of_passages lines hfront hpassages⟩

/-- A list with a list, a fence and a list in a quote between its items, a table, and one more list. -/
def nestedText : List Char :=
  ("- a\n  - b\n  - c\n- d\n\n  > ```x\n  > ```\n  > 1. e\n- f\n\n# T\n\n" ++
    "| h | i |\n|---|---|\n| j | k |\n\n1. l\n").toList

/-- Three items of the outermost list, whatever is between them. -/
theorem blocksRecorded_nestedText :
    (listsAmong (cutOn '\n' nestedText) (documentEvents nestedText)).map
        (fun l => (l.itemCount, l.line)) = [(3, 1), (2, 2), (1, 8), (1, 17)] ∧
      (tablesAmong (cutOn '\n' nestedText) (documentEvents nestedText)).map (·.headers) =
        [["h", "i"]] ∧
      WellNested true (documentEvents nestedText) ∧
      ∃ front passages, BlocksRecorded (cutOn '\n' nestedText) (documentEvents nestedText)
        (sectionsOf (cutOn '\n' nestedText) (documentEvents nestedText)).1
        (sectionsOf (cutOn '\n' nestedText) (documentEvents nestedText)).2 front passages := by
  refine ⟨by decide +kernel, by decide +kernel, wellNested_documentEvents _, ?_⟩
  exact blocksRecorded_sectionsOf (wellNested_documentEvents nestedText)

/-- The blocks of a document that was read are recorded once, in the sections they stand in. -/
theorem blocksRecorded_of_parseDocument {text path : String} {d : Document}
    (h : parseDocument text path = .ok d) : ∃ frontMatter body front passages,
      splitFrontMatter text = .ok (frontMatter, body) ∧
        BlocksRecorded (cutOn '\n' body.toList) (documentEvents body.toList) d.preamble d.sections
          front passages := by
  obtain ⟨⟨frontMatter, body⟩, hsplit, h⟩ := bind_eq_ok.1 h
  obtain ⟨front, passages, hevents, hfront, hpassages⟩ :=
    (wellNested_documentEvents body.toList).exists_passages rfl
  have hrecorded := blocksRecorded_of_passages (cutOn '\n' body.toList) hfront hpassages
  rw [← hevents] at hrecorded
  cases h
  exact ⟨frontMatter, body, front, passages, hsplit, hrecorded⟩

end Outline

import Outline.Proofs.Document.Passages

/-!
# Blocks among events

A list and a table begin and end with an event of their own, and what stands between them may hold
lists and tables, too. **The events of every text are well nested** (`wellNested_documentEvents`): each
of these ends after all that begins in it. So a list has the items that are in no list inside of it, a
table the texts in its own head, and no heading of a section stands in one of them.

* `WellNested`: events in which each list, table and head ends after all that begins in it;
* `directItems`, `headTexts`: the items of a list and the texts in the head of a table;
* `listsAmong`, `tablesAmong`, `codeBlocksAmong`: the blocks of events, in order;
* `WellNested.listsAmong_append`, `WellNested.tablesAmong_append`: those of events in a row;
* `WellNested.exists_passages`: headings cut well-nested events into well-nested passages.
-/

namespace Outline

open Markdown (Event Inline Block Labels documentEvents eventsOf blockEvents itemEvents rowEvents)

variable {lines : List (List Char)} {top : Bool} {events es cells inside rest : List Event}

/-! ## Well-nested events -/

/-- Whether an event is a text that is no heading of a section. -/
def Markdown.Event.isText : Event → Bool
  | .text .. => true
  | _ => false

/-- Whether an event may stand in a table. -/
def Markdown.Event.isInner : Event → Bool
  | .text .. | .headStart | .headEnd => true
  | _ => false

/-- The events in a table: texts, and heads with nothing but texts in them. -/
inductive InTable : List Event → Prop where
  | nil : InTable []
  | text {first stop : Nat} {pieces : List Inline} {es : List Event} (h : InTable es) :
      InTable (.text first stop pieces :: es)
  | head {cells es : List Event} (hcells : ∀ e ∈ cells, e.isText = true) (h : InTable es) :
      InTable (.headStart :: (cells ++ .headEnd :: es))

/-- **Well-nested events**, `top` outside of lists: only there headings stand, and items only in lists.
A list ends after all that begins in it, and a table has nothing in it but its own cells. -/
inductive WellNested : (top : Bool) → List Event → Prop where
  | nil {top : Bool} : WellNested top []
  | heading {level first stop : Nat} {title : List Inline} {es : List Event}
      (h : WellNested true es) : WellNested true (.heading level first stop title :: es)
  | text {top : Bool} {first stop : Nat} {pieces : List Inline} {es : List Event}
      (h : WellNested top es) : WellNested top (.text first stop pieces :: es)
  | fence {top : Bool} {first : Nat} {info : List Char} {es : List Event}
      (h : WellNested top es) : WellNested top (.fence first info :: es)
  | item {es : List Event} (h : WellNested false es) : WellNested false (.item :: es)
  | list {top : Bool} {ordered : Bool} {first : Nat} {inside es : List Event}
      (hinside : WellNested false inside) (h : WellNested top es) :
      WellNested top (.listStart ordered first :: (inside ++ .listEnd :: es))
  | table {top : Bool} {first : Nat} {inside es : List Event}
      (hinside : InTable inside) (h : WellNested top es) :
      WellNested top (.tableStart first :: (inside ++ .tableEnd :: es))

/-! ## Blocks among events -/

/-- The number of items behind the start of a list up to its end, without those of lists inside of it.
The depth is the number of lists that began inside of it and have not ended. -/
def directItems : (depth : Nat) → List Event → Nat
  | _, [] => 0
  | depth, .listStart .. :: es => directItems (depth + 1) es
  | 0, .listEnd :: _ => 0
  | depth + 1, .listEnd :: es => directItems depth es
  | 0, .item :: es => directItems 0 es + 1
  | depth, _ :: es => directItems depth es

/-- The texts in the head of a table, behind the start of the table up to its end. -/
def headTexts : (inHead : Bool) → List Event → List String
  | _, [] => []
  | _, .tableEnd :: _ => []
  | _, .headStart :: es => headTexts true es
  | _, .headEnd :: es => headTexts false es
  | true, .text _ _ pieces :: es => String.ofList (Markdown.plainText pieces) :: headTexts true es
  | inHead, _ :: es => headTexts inHead es

/-- The column at which a block begins on a line that is counted from 0. -/
def columnOn (lines : List (List Char)) (first : Nat) : Nat :=
  blockColumn (lineAt lines (first + 1))

/-- The blocks of code among events. -/
def codeBlocksAmong (lines : List (List Char)) (events : List Event) : List CodeBlock :=
  events.filterMap fun
    | .fence first info =>
      some ⟨String.ofList (languageOf info), first + 1, columnOn lines first⟩
    | _ => none

/-- The lists among events, those inside of others behind them, each with its own items. -/
def listsAmong (lines : List (List Char)) : List Event → List ItemList
  | [] => []
  | .listStart ordered first :: es =>
    ⟨ordered, directItems 0 es, first + 1, columnOn lines first⟩ :: listsAmong lines es
  | _ :: es => listsAmong lines es

/-- The tables among events, each with the texts of its own head. -/
def tablesAmong (lines : List (List Char)) : List Event → List Table
  | [] => []
  | .tableStart first :: es =>
    ⟨headTexts false es, first + 1, columnOn lines first⟩ :: tablesAmong lines es
  | _ :: es => tablesAmong lines es

/-! ## Events in a row -/

/-- Events behind a list or a table, and more of them. -/
theorem enclosed_append (start stop : Event) (inside es rest : List Event) :
    start :: (inside ++ stop :: es) ++ rest = start :: (inside ++ stop :: (es ++ rest)) := by
  rw [List.cons_append, List.append_assoc, List.cons_append]

theorem forall_mem_enclosed {P : Event → Prop} {start stop : Event} :
    (∀ e ∈ start :: (inside ++ stop :: es), P e) ↔
      P start ∧ (∀ e ∈ inside, P e) ∧ P stop ∧ ∀ e ∈ es, P e := by
  rw [List.forall_mem_cons, List.forall_mem_append, List.forall_mem_cons]

theorem Markdown.Event.isInner_of_isText {e : Event} (h : e.isText = true) : e.isInner = true := by
  cases e <;> first | rfl | cases h

theorem InTable.isInner (h : InTable es) : ∀ e ∈ es, e.isInner = true := by
  induction h with
  | nil => exact List.forall_mem_nil _
  | text _ ih => exact List.forall_mem_cons.2 ⟨rfl, ih⟩
  | head hcells _ ih =>
    exact forall_mem_enclosed.2
      ⟨rfl, fun e he => Markdown.Event.isInner_of_isText (hcells e he), rfl, ih⟩

/-- No item counts in a table. -/
theorem directItems_inner (h : ∀ e ∈ inside, e.isInner = true) (rest : List Event) (depth : Nat) :
    directItems depth (inside ++ rest) = directItems depth rest := by
  induction inside with
  | nil => rfl
  | cons e es ih =>
    obtain ⟨he, hes⟩ := List.forall_mem_cons.1 h
    refine Eq.trans ?_ (ih hes)
    cases e with
    | text | headStart | headEnd => cases depth <;> rfl
    | _ => cases he

/-- No block begins in a table. -/
theorem blocks_inner (h : ∀ e ∈ inside, e.isInner = true) (rest : List Event) :
    codeBlocksAmong lines (inside ++ rest) = codeBlocksAmong lines rest ∧
      listsAmong lines (inside ++ rest) = listsAmong lines rest ∧
      tablesAmong lines (inside ++ rest) = tablesAmong lines rest := by
  induction inside with
  | nil => exact ⟨rfl, rfl, rfl⟩
  | cons e es ih =>
    obtain ⟨he, hes⟩ := List.forall_mem_cons.1 h
    cases e with
    | text | headStart | headEnd => exact ih hes
    | _ => cases he

theorem headTexts_cells (hcells : ∀ e ∈ cells, e.isText = true) (rest : List Event) :
    headTexts true (cells ++ rest) = headTexts true cells ++ headTexts true rest := by
  induction cells with
  | nil => rfl
  | cons e cells ih =>
    obtain ⟨he, hrest⟩ := List.forall_mem_cons.1 hcells
    cases e with
    | text first stop pieces => exact congrArg (_ :: ·) (ih hrest)
    | _ => cases he

/-- The head of a table is closed before the table is. -/
theorem InTable.headTexts_append (h : InTable inside) (rest : List Event) :
    headTexts false (inside ++ rest) = headTexts false inside ++ headTexts false rest := by
  induction h with
  | nil => rfl
  | text _ ih => exact ih
  | @head cells es hcells _ ih =>
    have hhead (es : List Event) : headTexts false (.headStart :: (cells ++ .headEnd :: es)) =
        headTexts true cells ++ headTexts false es := headTexts_cells hcells _
    rw [hhead, enclosed_append, hhead, ih, List.append_assoc]

namespace WellNested

/-- The lists that begin inside of a list end there, and their items do not count in it. -/
theorem directItems_append (h : WellNested top inside) (rest : List Event) :
    directItems 0 (inside ++ rest) = directItems 0 inside + directItems 0 rest ∧
      ∀ depth, directItems (depth + 1) (inside ++ rest) = directItems (depth + 1) rest := by
  -- both at once: the lists inside are passed one deeper, where none of their items counts
  induction h generalizing rest with
  | nil => exact ⟨(Nat.zero_add _).symm, fun _ => rfl⟩
  | heading _ ih | text _ ih | fence _ ih => exact ih rest
  | item _ ih =>
    refine ⟨?_, (ih rest).2⟩
    have hcount := (ih rest).1
    simp only [List.cons_append, directItems]
    omega
  | @list top ordered first inside es _ _ ihinside ih =>
    have hover (es : List Event) (depth : Nat) :
        directItems depth (.listStart ordered first :: (inside ++ .listEnd :: es)) =
          directItems depth es := by
      simp only [directItems, (ihinside _).2]
    rw [enclosed_append]
    simp only [hover]
    exact ih rest
  | @table top first inside es hinside _ ih =>
    have hover (es : List Event) (depth : Nat) :
        directItems depth (.tableStart first :: (inside ++ .tableEnd :: es)) =
          directItems depth es := by
      have hskip := directItems_inner hinside.isInner (.tableEnd :: es) depth
      cases depth <;> simpa only [directItems] using hskip
    rw [enclosed_append]
    simp only [hover]
    exact ih rest

/-- The items of a list are those before its end. -/
theorem directItems_listEnd (h : WellNested top inside) (rest : List Event) :
    directItems 0 (inside ++ .listEnd :: rest) = directItems 0 inside :=
  (h.directItems_append _).1

end WellNested

/-- The lists that begin in a list are recorded behind it. -/
theorem WellNested.listsAmong_append (h : WellNested top inside) (rest : List Event) :
    listsAmong lines (inside ++ rest) = listsAmong lines inside ++ listsAmong lines rest := by
  induction h generalizing rest with
  | nil => rfl
  | heading _ ih | text _ ih | fence _ ih | item _ ih => exact ih rest
  | @list top ordered first inside es hinside _ ihinside ih =>
    have hover (es : List Event) :
        listsAmong lines (.listStart ordered first :: (inside ++ .listEnd :: es)) =
          ⟨ordered, directItems 0 inside, first + 1, columnOn lines first⟩ ::
            (listsAmong lines inside ++ listsAmong lines es) := by
      rw [listsAmong, hinside.directItems_listEnd, ihinside]
      rfl
    rw [enclosed_append, hover, hover, ih, List.cons_append, List.append_assoc]
  | @table top first inside es hinside _ ih =>
    have hover (es : List Event) :
        listsAmong lines (.tableStart first :: (inside ++ .tableEnd :: es)) =
          listsAmong lines es := (blocks_inner hinside.isInner _).2.1
    rw [enclosed_append, hover, hover, ih]

/-- A table has the texts of its own head. -/
theorem InTable.tablesAmong_cons (h : InTable inside) (first : Nat) (rest : List Event) :
    tablesAmong lines (.tableStart first :: (inside ++ .tableEnd :: rest)) =
      ⟨headTexts false inside, first + 1, columnOn lines first⟩ :: tablesAmong lines rest := by
  rw [tablesAmong, h.headTexts_append, (blocks_inner h.isInner _).2.2]
  simp only [headTexts, List.append_nil]
  rfl

theorem WellNested.tablesAmong_append (h : WellNested top inside) (rest : List Event) :
    tablesAmong lines (inside ++ rest) = tablesAmong lines inside ++ tablesAmong lines rest := by
  induction h generalizing rest with
  | nil => rfl
  | heading _ ih | text _ ih | fence _ ih | item _ ih => exact ih rest
  | @list top ordered first inside es _ _ ihinside ih =>
    have hover (es : List Event) :
        tablesAmong lines (.listStart ordered first :: (inside ++ .listEnd :: es)) =
          tablesAmong lines inside ++ tablesAmong lines es := ihinside _
    rw [enclosed_append, hover, hover, ih, List.append_assoc]
  | @table top first inside es hinside _ ih =>
    rw [enclosed_append, hinside.tablesAmong_cons, hinside.tablesAmong_cons, ih, List.cons_append]

/-! ## Passages -/

/-- Events in a table are no headings of sections, nor are those of lists. -/
theorem InTable.plain (h : InTable es) : ∀ event ∈ es, event.isHeading = false := by
  intro event hevent
  have hinner := h.isInner event hevent
  cases event <;> first | rfl | cases hinner

theorem WellNested.plain (h : WellNested top es) (htop : top = false) :
    ∀ event ∈ es, event.isHeading = false := by
  induction h with
  | nil => exact List.forall_mem_nil _
  | heading => cases htop
  | text _ ih | fence _ ih | item _ ih => exact List.forall_mem_cons.2 ⟨rfl, ih htop⟩
  | list _ _ ihinside ih => exact forall_mem_enclosed.2 ⟨rfl, ihinside rfl, rfl, ih htop⟩
  | table hinside _ ih => exact forall_mem_enclosed.2 ⟨rfl, hinside.plain, rfl, ih htop⟩

/-- Well-nested events without a heading of a section. -/
structure Unheaded (es : List Event) : Prop where
  wellNested : WellNested true es
  plain : ∀ event ∈ es, event.isHeading = false

namespace Unheaded

theorem nil : Unheaded [] := ⟨.nil, List.forall_mem_nil _⟩

theorem text (h : Unheaded es) (first stop : Nat) (pieces : List Inline) :
    Unheaded (.text first stop pieces :: es) :=
  ⟨.text h.wellNested, List.forall_mem_cons.2 ⟨rfl, h.plain⟩⟩

theorem fence (h : Unheaded es) (first : Nat) (info : List Char) :
    Unheaded (.fence first info :: es) :=
  ⟨.fence h.wellNested, List.forall_mem_cons.2 ⟨rfl, h.plain⟩⟩

theorem list (hinside : WellNested false inside) (h : Unheaded es) (ordered : Bool) (first : Nat) :
    Unheaded (.listStart ordered first :: (inside ++ .listEnd :: es)) :=
  ⟨.list hinside h.wellNested, forall_mem_enclosed.2 ⟨rfl, hinside.plain rfl, rfl, h.plain⟩⟩

theorem table (hinside : InTable inside) (h : Unheaded es) (first : Nat) :
    Unheaded (.tableStart first :: (inside ++ .tableEnd :: es)) :=
  ⟨.table hinside h.wellNested, forall_mem_enclosed.2 ⟨rfl, hinside.plain, rfl, h.plain⟩⟩

end Unheaded

/-- **No heading of a section cuts a block**: the passages of well-nested events are well nested. -/
theorem WellNested.exists_passages (h : WellNested top events) (htop : top = true) :
    ∃ front, ∃ passages : List Passage, events = front ++ passages.flatMap Passage.events ∧
      Unheaded front ∧ ∀ p ∈ passages, Unheaded p.behind := by
  induction h with
  | nil => exact ⟨[], [], rfl, .nil, List.forall_mem_nil _⟩
  | @heading level first stop title es _ ih =>
    obtain ⟨front, passages, rfl, hfront, hpassages⟩ := ih htop
    exact ⟨[], ⟨level, first, stop, title, front⟩ :: passages, rfl, .nil,
      List.forall_mem_cons.2 ⟨hfront, hpassages⟩⟩
  | text _ ih =>
    obtain ⟨front, passages, rfl, hfront, hpassages⟩ := ih htop
    exact ⟨_ :: front, passages, rfl, hfront.text _ _ _, hpassages⟩
  | fence _ ih =>
    obtain ⟨front, passages, rfl, hfront, hpassages⟩ := ih htop
    exact ⟨_ :: front, passages, rfl, hfront.fence _ _, hpassages⟩
  | item => cases htop
  | @list _ ordered first inside es hinside _ _ ih =>
    obtain ⟨front, passages, rfl, hfront, hpassages⟩ := ih htop
    exact ⟨.listStart ordered first :: (inside ++ .listEnd :: front), passages,
      (enclosed_append _ _ _ _ _).symm, hfront.list hinside ordered first, hpassages⟩
  | @table _ first inside es hinside _ ih =>
    obtain ⟨front, passages, rfl, hfront, hpassages⟩ := ih htop
    exact ⟨.tableStart first :: (inside ++ .tableEnd :: front), passages,
      (enclosed_append _ _ _ _ _).symm, hfront.table hinside first, hpassages⟩

/-! ## Documents -/

theorem WellNested.append (h : WellNested top es) (hrest : WellNested top rest) :
    WellNested top (es ++ rest) := by
  induction h with
  | nil => exact hrest
  | heading _ ih => exact .heading (ih hrest)
  | text _ ih => exact .text (ih hrest)
  | fence _ ih => exact .fence (ih hrest)
  | item _ ih => exact .item (ih hrest)
  | list hinside _ _ ih =>
    rw [enclosed_append]
    exact .list hinside (ih hrest)
  | table hinside _ ih =>
    rw [enclosed_append]
    exact .table hinside (ih hrest)

/-- The rows of a table are texts in it. -/
theorem InTable.texts (h : ∀ e ∈ es, e.isText = true) : InTable es := by
  induction es with
  | nil => exact .nil
  | cons e es ih =>
    obtain ⟨he, hes⟩ := List.forall_mem_cons.1 h
    cases e with
    | text => exact .text (ih hes)
    | _ => cases he

theorem isText_of_mem_rowEvents (labels : Labels) (line : Nat) (cells : List (List Char)) :
    ∀ e ∈ rowEvents labels line cells, e.isText = true := by
  intro e he
  obtain ⟨cell, -, rfl⟩ := List.mem_map.1 he
  rfl

theorem wellNested_table (labels : Labels) (first : Nat) (header : List (List Char))
    (rows : List (Nat × List (List Char))) {outer : Bool} :
    WellNested top (blockEvents labels outer (.table first header rows)) := by
  have hheader := isText_of_mem_rowEvents labels first header
  have hrows : InTable (rows.flatMap fun row => rowEvents labels row.1 row.2) := by
    refine .texts fun e he => ?_
    obtain ⟨row, -, he⟩ := List.mem_flatMap.1 he
    exact isText_of_mem_rowEvents _ _ _ e he
  have htable : WellNested top (.tableStart first :: (.headStart :: (rowEvents labels first header ++
      .headEnd :: rows.flatMap fun row => rowEvents labels row.1 row.2) ++ .tableEnd :: [])) :=
    .table (.head hheader hrows) .nil
  simpa only [blockEvents, List.cons_append, List.append_assoc] using htable

mutual

/-- The events of blocks are well nested: what is in a quote or in a list has no headings of sections,
wherever that stands. -/
theorem wellNested_blockEvents (labels : Labels) : ∀ {top outer : Bool},
    (outer = true → top = true) → ∀ b : Block, WellNested top (blockEvents labels outer b)
  | _, true, h, .heading .. => by
    rw [h rfl]
    exact .heading .nil
  | _, false, _, .heading .. => .text .nil
  | _, _, _, .paragraph .. => .text .nil
  | _, _, _, .fence .. => .fence .nil
  | _, _, _, .quote blocks => wellNested_eventsOf labels Bool.noConfusion blocks
  | _, _, _, .list _ _ items => .list (wellNested_itemEvents labels items) .nil
  | _, _, _, .table first header rows => wellNested_table labels first header rows
  | _, _, _, .definition .. => .nil

theorem wellNested_eventsOf (labels : Labels) : ∀ {top outer : Bool},
    (outer = true → top = true) → ∀ blocks : List Block, WellNested top (eventsOf labels outer blocks)
  | _, _, _, [] => .nil
  | _, _, h, b :: bs => (wellNested_blockEvents labels h b).append (wellNested_eventsOf labels h bs)

theorem wellNested_itemEvents (labels : Labels) : ∀ items : List (List Block),
    WellNested false (itemEvents labels items)
  | [] => .nil
  | bs :: rest =>
    .item ((wellNested_eventsOf labels id bs).append (wellNested_itemEvents labels rest))

end

/-- **The events of every text are well nested.** -/
theorem wellNested_documentEvents (text : List Char) : WellNested true (documentEvents text) :=
  wellNested_eventsOf _ id _

end Outline

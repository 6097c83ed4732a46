import Mathlib
import Outline.Document.Build
import Outline.Proofs.Document.Tree

/-!
# Lines of a document

The headings of a document begin at increasing lines and share none. The blocks of a container are read
from its lines in order, at most one heading at each (`headingSpans_readBlocks`); the events of the
blocks keep the headings outside of quotes and lists (`eventSpans_eventsOf`), each of them becomes an
entry (`map_bare_gather`), and nesting keeps the order (`map_bare_nest`). Hence **the sections of every
document that was read are regular** (`regular_of_parseDocument`).
-/

namespace Outline

namespace Markdown

/-! ## Blocks -/

/-- The lines of the headings among blocks, each from its first one up to `stop`; headings inside of
quotes and lists are left out. -/
def headingSpans (blocks : List Block) : List (Nat × Nat) :=
  blocks.filterMap fun
    | .heading _ first _ stop _ => some (first, stop)
    | _ => none

theorem headingSpans_append (bs bs' : List Block) :
    headingSpans (bs ++ bs') = headingSpans bs ++ headingSpans bs' :=
  List.filterMap_append

/-- A line of equals signs or hyphens with blanks behind them. -/
theorem underline?_eq_some {body : List Char} {level : Nat} (h : underline? body = some level) :
    ∃ sign rest, body = sign :: rest ∧ (sign = '=' ∧ level = 1 ∨ sign = '-' ∧ level = 2) ∧
      ∀ c ∈ body.dropWhile (· == sign), isIndent c = true := by
  unfold underline? at h
  split at h
  · rename_i sign rest
    split at h
    · rename_i hsigns
      rw [Bool.and_eq_true, List.all_eq_true, Bool.or_eq_true, beq_iff_eq, beq_iff_eq] at hsigns
      obtain ⟨hsign, hblanks⟩ := hsigns
      refine ⟨sign, rest, rfl, ?_, hblanks⟩
      rw [← Option.some.inj h]
      rcases hsign with rfl | rfl
      · exact .inl ⟨rfl, rfl⟩
      · exact .inr ⟨rfl, rfl⟩
    · cases h
  · cases h

/-- The line that underlines a text stands behind lines that are not blank. -/
theorem underlined?_eq_some {k : Inside} {ls : List Line} {level more : Nat}
    (h : underlined? k ls = some (level, more)) :
    (∃ l, ls[more]? = some l ∧ l.isCode k.indent = false ∧ underline? l.body = some level) ∧
      ∀ i < more, ∃ l, ls[i]? = some l ∧ l.isBlank = false := by
  induction ls generalizing more with
  | nil => cases h
  | cons l ls ih =>
    unfold underlined? at h
    split at h
    · cases h
    rename_i hblank
    dsimp only at h
    split at h
    · rename_i level' hlevel
      cases h
      refine ⟨⟨l, rfl, ?_⟩, fun i hi => absurd hi (Nat.not_lt_zero i)⟩
      split at hlevel
      · cases hlevel
      · rename_i hcode
        rw [Bool.or_eq_true, not_or] at hcode
        exact ⟨Bool.eq_false_iff.2 hcode.1, hlevel⟩
    · split at h
      · cases h
      · obtain ⟨⟨found, count⟩, hfound, h⟩ := Option.map_eq_some_iff.1 h
        cases h
        obtain ⟨hunder, hbetween⟩ := ih hfound
        refine ⟨hunder, fun i hi => ?_⟩
        cases i with
        | zero => exact ⟨l, rfl, Bool.eq_false_iff.2 hblank⟩
        | succ i => exact hbetween i (Nat.lt_of_succ_lt_succ hi)

theorem underlined?_lt {k : Inside} {ls : List Line} {level more : Nat}
    (h : underlined? k ls = some (level, more)) : more < ls.length := by
  obtain ⟨⟨l, hl, -, -⟩, -⟩ := underlined?_eq_some h
  exact (List.getElem?_eq_some_iff.1 hl).1

/-- What is read at a line has no heading, or only one, on all the lines that were read. -/
def HeadingAt (l : Line) (rest : List Line) (found : List Block × Nat) : Prop :=
  headingSpans found.1 = [] ∨
    headingSpans found.1 = [(l.number, l.number + found.2)] ∧ 0 < found.2 ∧
      found.2 ≤ rest.length + 1

theorem headingAt_textBlock (k : Inside) (l : Line) (rest : List Line) :
    HeadingAt l rest (textBlock k l rest) := by
  unfold textBlock
  split
  · exact .inr ⟨rfl, Nat.one_pos, Nat.succ_pos _⟩
  · split
    · rename_i level more hunder
      exact .inr ⟨rfl, Nat.succ_pos _, Nat.succ_le_succ (underlined?_lt hunder)⟩
    · exact .inl rfl

theorem headingAt_plainBlock (k : Inside) (l : Line) (rest : List Line) :
    HeadingAt l rest (plainBlock k l rest) := by
  unfold plainBlock
  split
  · exact .inl rfl
  · split
    · exact .inl rfl
    · exact headingAt_textBlock k l rest

/-- At a line, at most one heading is read, which begins there. -/
theorem headingAt_readBlock (nested : Reader) (k : Inside) (l : Line) (rest : List Line) :
    HeadingAt l rest (readBlock nested k l rest) := by
  unfold readBlock
  split
  · exact .inl rfl
  split
  · exact .inl rfl
  split
  · exact .inl rfl
  split
  · exact .inl rfl
  split
  · exact .inl rfl
  split
  · exact .inl rfl
  · exact headingAt_plainBlock k l rest

/-- **Lines of headings between two lines, in order**: they are not empty, and each heading begins
behind the one before it. -/
def SpansBetween : (start stop : Nat) → List (Nat × Nat) → Prop
  | _, _, [] => True
  | start, stop, s :: rest => start ≤ s.1 ∧ s.1 < s.2 ∧ s.2 ≤ stop ∧ SpansBetween s.2 stop rest

theorem SpansBetween.widen {start start' stop stop' : Nat} {spans : List (Nat × Nat)}
    (h : SpansBetween start stop spans) (hstart : start' ≤ start) (hstop : stop ≤ stop') :
    SpansBetween start' stop' spans := by
  induction spans generalizing start start' with
  | nil => trivial
  | cons s rest ih =>
    obtain ⟨hfirst, hlt, hle, hrest⟩ := h
    exact ⟨hstart.trans hfirst, hlt, hle.trans hstop, ih hrest le_rfl⟩

theorem SpansBetween.eq_nil {start : Nat} {spans : List (Nat × Nat)}
    (h : SpansBetween start start spans) : spans = [] := by
  cases spans with
  | nil => rfl
  | cons s rest =>
    obtain ⟨hfirst, hlt, hle, -⟩ := h
    omega

/-- **Lines of headings that are in range, increasing and disjoint**, counted from 0. -/
structure SpansInOrder (total : Nat) (spans : List (Nat × Nat)) : Prop where
  inRange : ∀ s ∈ spans, s.1 ≤ s.2 ∧ s.1 < total ∧ s.2 ≤ total
  increasing : spans.Pairwise fun s t => s.1 < t.1
  disjoint : spans.Pairwise fun s t => s.2 ≤ t.1

theorem SpansInOrder.tail {total : Nat} {s : Nat × Nat} {spans : List (Nat × Nat)}
    (h : SpansInOrder total (s :: spans)) : SpansInOrder total spans where
  inRange t ht := h.inRange t (List.mem_cons_of_mem _ ht)
  increasing := h.increasing.of_cons
  disjoint := h.disjoint.of_cons

theorem SpansBetween.inOrder {start stop : Nat} {spans : List (Nat × Nat)}
    (h : SpansBetween start stop spans) :
    SpansInOrder stop spans ∧ ∀ s ∈ spans, start ≤ s.1 := by
  induction spans generalizing start with
  | nil => exact ⟨⟨fun _ hs => absurd hs List.not_mem_nil, .nil, .nil⟩,
      fun _ hs => absurd hs List.not_mem_nil⟩
  | cons s rest ih =>
    obtain ⟨hfirst, hlt, hle, hrest⟩ := h
    obtain ⟨⟨hrange, hincreasing, hdisjoint⟩, hbehind⟩ := ih hrest
    refine ⟨⟨?_, ?_, ?_⟩, ?_⟩
    · exact List.forall_mem_cons.2 ⟨⟨hlt.le, hlt.trans_le hle, hle⟩, hrange⟩
    · exact List.pairwise_cons.2 ⟨fun t ht => hlt.trans_le (hbehind t ht), hincreasing⟩
    · exact List.pairwise_cons.2 ⟨hbehind, hdisjoint⟩
    · exact List.forall_mem_cons.2
        ⟨hfirst, fun t ht => hfirst.trans (hlt.le.trans (hbehind t ht))⟩

/-- Lines whose numbers follow each other from `n` on. -/
def NumberedFrom (n : Nat) (ls : List Line) : Prop := ls.map Line.number = List.range' n ls.length

theorem NumberedFrom.drop {n : Nat} {ls : List Line} (h : NumberedFrom n ls) (m : Nat) :
    NumberedFrom (n + m) (ls.drop m) := by
  unfold NumberedFrom at *
  rw [List.map_drop, h, List.drop_range', List.length_drop, Nat.mul_one]

/-- **Headings are read in the order of their lines**, and they share none. -/
theorem headingSpans_readBlocks (nested : Reader) (k : Inside) : ∀ (fuel : Nat) {n : Nat}
    {ls : List Line}, NumberedFrom n ls →
      SpansBetween n (n + ls.length) (headingSpans (readBlocks nested k fuel ls).1)
  | 0, _, _, _ => trivial
  | fuel + 1, n, ls, hnumbers => by
    unfold readBlocks
    dsimp only
    generalize (ls.takeWhile Line.isBlank).length = blanks
    split
    · trivial
    · rename_i l rest heq
      split_ifs
      · trivial
      · trivial
      · have hlength := congrArg List.length heq
        rw [List.length_drop, List.length_cons] at hlength
        have hnumber : l.number = n + blanks := by
          have hdrop := hnumbers.drop blanks
          rw [heq] at hdrop
          exact (List.cons.inj hdrop).1
        have hrest := headingSpans_readBlocks nested k fuel
          (hnumbers.drop (blanks + max 1 (readBlock nested k l rest).2))
        rw [List.length_drop] at hrest
        rw [headingSpans_append]
        rcases headingAt_readBlock nested k l rest with hnone | ⟨hone, hpos, hle⟩
        · rw [hnone, List.nil_append]
          by_cases hend : blanks + max 1 (readBlock nested k l rest).2 ≤ ls.length
          · exact hrest.widen (by omega) (by omega)
          · -- nothing is left to read
            rw [Nat.sub_eq_zero_of_le (by omega)] at hrest
            rw [hrest.eq_nil]
            trivial
        · rw [hone, hnumber]
          exact ⟨by omega, by omega, by omega, hrest.widen (by omega) (by omega)⟩

theorem numberedFrom_numbered (pieces : List (List Char)) : ∀ n,
    NumberedFrom n (numbered n pieces) := by
  unfold NumberedFrom
  induction pieces with
  | nil => intro n; rfl
  | cons cs rest ih => intro n; simp [numbered, lineOf, ih, List.range'_succ]

/-- The headings of a document stand on lines of it, one behind the other. -/
theorem headingSpans_blocksOf (text : List Char) :
    SpansBetween 0 (documentLines text).length (headingSpans (blocksOf text)) := by
  have hnumbers : NumberedFrom 0 (documentLines text) := numberedFrom_numbered _ 0
  have hspans := headingSpans_readBlocks (readNested maxLevel) ⟨0, none, 0⟩
    ((documentLines text).length + 1) hnumbers
  rw [Nat.zero_add] at hspans
  exact hspans

/-! ## Events -/

/-- The lines of the headings among events, each from its first one up to `stop`. -/
def eventSpans (events : List Event) : List (Nat × Nat) :=
  events.filterMap fun
    | .heading _ first stop _ => some (first, stop)
    | _ => none

theorem eventSpans_append (es es' : List Event) :
    eventSpans (es ++ es') = eventSpans es ++ eventSpans es' :=
  List.filterMap_append

theorem eventSpans_rowEvents (labels : Labels) (line : Nat) (cells : List (List Char)) :
    eventSpans (rowEvents labels line cells) = [] := by
  simp [eventSpans, rowEvents]

theorem eventSpans_flatMap_rowEvents (labels : Labels) (rows : List (Nat × List (List Char))) :
    eventSpans (rows.flatMap fun row => rowEvents labels row.1 row.2) = [] := by
  induction rows with
  | nil => rfl
  | cons row rows ih =>
    rw [List.flatMap_cons, eventSpans_append, eventSpans_rowEvents, ih, List.append_nil]

theorem eventSpans_table (labels : Labels) (top : Bool) (first : Nat) (header : List (List Char))
    (rows : List (Nat × List (List Char))) :
    eventSpans (blockEvents labels top (.table first header rows)) = [] := by
  change eventSpans ((rowEvents labels first header ++ .headEnd ::
    rows.flatMap fun row => rowEvents labels row.1 row.2) ++ [.tableEnd]) = []
  rw [eventSpans_append, eventSpans_append, eventSpans_rowEvents, List.nil_append]
  exact (List.append_nil _).trans (eventSpans_flatMap_rowEvents labels rows)

mutual

/-- Inside of quotes and lists, no heading begins a section. -/
theorem eventSpans_blockEvents_inside (labels : Labels) : ∀ b : Block,
    eventSpans (blockEvents labels false b) = []
  | .heading .. => rfl
  | .paragraph .. => rfl
  | .fence .. => rfl
  | .quote blocks => eventSpans_eventsOf_inside labels blocks
  | .list ordered first items => by
    have h := eventSpans_itemEvents labels items
    rw [blockEvents, eventSpans_append]
    simpa [eventSpans] using h
  | .table first header rows => eventSpans_table labels false first header rows
  | .definition .. => rfl

theorem eventSpans_eventsOf_inside (labels : Labels) : ∀ blocks : List Block,
    eventSpans (eventsOf labels false blocks) = []
  | [] => rfl
  | b :: bs => by
    rw [eventsOf, eventSpans_append, eventSpans_blockEvents_inside labels b,
      eventSpans_eventsOf_inside labels bs, List.append_nil]

theorem eventSpans_itemEvents (labels : Labels) : ∀ items : List (List Block),
    eventSpans (itemEvents labels items) = []
  | [] => rfl
  | bs :: rest => by
    have hb := eventSpans_eventsOf_inside labels bs
    have hr := eventSpans_itemEvents labels rest
    change eventSpans (eventsOf labels false bs ++ itemEvents labels rest) = []
    rw [eventSpans_append, hb, hr, List.append_nil]

end

/-- The headings that begin sections are those outside of quotes and lists. -/
theorem eventSpans_eventsOf (labels : Labels) (blocks : List Block) :
    eventSpans (eventsOf labels true blocks) = headingSpans blocks := by
  induction blocks with
  | nil => rfl
  | cons b bs ih =>
    rw [eventsOf, eventSpans_append, ih, ← List.singleton_append, headingSpans_append]
    congr 1
    cases b with
    | heading | paragraph | fence | definition => rfl
    | quote blocks => exact eventSpans_eventsOf_inside labels blocks
    | list ordered first items =>
      have h := eventSpans_itemEvents labels items
      rw [blockEvents, eventSpans_append]
      simpa [eventSpans, headingSpans] using h
    | table first header rows => exact eventSpans_table labels true first header rows

/-- **The headings of a document stand on lines of it, one behind the other.** -/
theorem eventSpans_documentEvents (text : List Char) :
    SpansBetween 0 (documentLines text).length (eventSpans (documentEvents text)) := by
  rw [documentEvents, eventSpans_eventsOf]
  exact headingSpans_blocksOf text

/-- The lines at which the headings among events begin. -/
def eventLines (events : List Event) : List Nat :=
  events.filterMap fun
    | .heading _ first _ _ => some first
    | _ => none

theorem map_fst_eventSpans (events : List Event) :
    (eventSpans events).map Prod.fst = eventLines events := by
  unfold eventSpans eventLines
  rw [List.map_filterMap]
  refine List.filterMap_congr fun event _ => ?_
  cases event <;> rfl

end Markdown

open Markdown

/-! ## Entries -/

/-- The level, the text and the line of an entry, counted from 1. -/
def Entry.mark (e : Entry) : Nat × String × Nat := (e.level, String.ofList e.text, e.first + 1)

/-- The levels, the texts and the lines of the headings among events. -/
def eventMarks (events : List Event) : List (Nat × String × Nat) :=
  events.filterMap fun
    | .heading level first _ pieces =>
      some (level, String.ofList (Markdown.plainText pieces), first + 1)
    | _ => none

theorem map_line_eventMarks (events : List Event) :
    (eventMarks events).map (·.2.2) = (eventLines events).map (· + 1) := by
  unfold eventMarks eventLines
  rw [List.map_filterMap, List.map_filterMap]
  refine List.filterMap_congr fun event _ => ?_
  cases event <;> rfl

/-- An entry without the elements behind its heading. -/
def Entry.bare (e : Entry) : Entry := { e with elements := {} }

/-- The headings among events, as entries without elements. -/
def eventEntries (events : List Event) : List Entry :=
  events.filterMap fun
    | .heading level first stop pieces => some ⟨level, first, stop, Markdown.plainText pieces, {}⟩
    | _ => none

theorem eventEntries_append (es es' : List Event) :
    eventEntries (es ++ es') = eventEntries es ++ eventEntries es' :=
  List.filterMap_append

namespace Gathering

theorem map_bare_change (g : Gathering) (f : Elements → Elements) :
    (g.change f).entries.map Entry.bare = g.entries.map Entry.bare := by
  unfold change
  split <;> simp_all [Entry.bare]

/-- An event adds an entry if it is a heading. -/
theorem map_bare_step (lines : List (List Char)) (g : Gathering) (event : Event) :
    (g.step lines event).entries.map Entry.bare =
      (eventEntries [event]).reverse ++ g.entries.map Entry.bare := by
  cases event with
  | heading | listEnd | headStart | headEnd | tableEnd => rfl
  | text | fence | listStart | tableStart => exact map_bare_change g _
  | item =>
    simp only [step]
    split
    · rfl
    · exact map_bare_change g _

theorem map_bare_foldl (lines : List (List Char)) (events : List Event) : ∀ g : Gathering,
    (events.foldl (step lines) g).entries.map Entry.bare =
      (eventEntries events).reverse ++ g.entries.map Entry.bare := by
  induction events with
  | nil => intro g; rfl
  | cons event events ih =>
    intro g
    rw [List.foldl_cons, ih, map_bare_step, ← List.append_assoc, ← List.reverse_append,
      ← eventEntries_append, List.singleton_append]

end Gathering

/-- **Each heading becomes an entry**, in the order of the events. -/
theorem map_bare_gather (lines : List (List Char)) (events : List Event) :
    (gather lines events).2.map Entry.bare = eventEntries events := by
  unfold gather
  rw [List.map_reverse, Gathering.map_bare_foldl]
  simp

theorem map_mark_gather (lines : List (List Char)) (events : List Event) :
    (gather lines events).2.map Entry.mark = eventMarks events := by
  have hmark : Entry.mark = Entry.mark ∘ Entry.bare := rfl
  rw [hmark, ← List.map_map, map_bare_gather, eventEntries, eventMarks, List.map_filterMap]
  refine List.filterMap_congr fun event _ => ?_
  cases event <;> rfl

/-! ## Sections -/

/-- The level, the text and the line of the heading of a section. -/
def Section.mark (s : Section) : Nat × String × Nat :=
  (s.heading.level, s.heading.text, s.startLine)

/-- The line of the next entry, or the end of the document. -/
def nextLine (total : Nat) : List Entry → Nat
  | [] => total
  | e :: _ => e.first

theorem text_sectionOf (lines : List (List Char)) (e : Entry) (later : List Entry) :
    (sectionOf lines e later).body.text = region lines e.stop (nextLine lines.length later) := by
  cases later <;> rfl

theorem map_mark_flatSections (lines : List (List Char)) (entries : List Entry) :
    (flatSections lines entries).map Section.mark = entries.map Entry.mark := by
  induction entries with
  | nil => rfl
  | cons e es ih => rw [flatSections, List.map_cons, List.map_cons, ih]; rfl

theorem line_of_mem_flatSections {lines : List (List Char)} {entries : List Entry} {s : Section}
    (h : s ∈ flatSections lines entries) : s.heading.line = s.startLine ∧ 0 < s.startLine := by
  induction entries with
  | nil => exact absurd h List.not_mem_nil
  | cons e es ih =>
    rcases List.mem_cons.1 h with rfl | h
    · exact ⟨rfl, Nat.succ_pos _⟩
    · exact ih h

/-- A section that adopts others keeps their order. -/
theorem walkAll_adopt (s : Section) (rest : List Section) :
    walkAll (adopt s rest) = ⟨s.heading, s.body, rest.takeWhile fun t =>
      s.heading.level < t.heading.level⟩ :: walkAll rest := by
  unfold adopt
  rw [walkAll_cons, ← walkAll_append, List.takeWhile_append_dropWhile]

/-- A section without its subsections. -/
def Section.bare (s : Section) : Section := { s with children := [] }

/-- **Nesting keeps the sections**, apart from their subsections, in order. -/
theorem map_bare_nest (sections : List Section) :
    (walkAll (nest sections)).map Section.bare = sections.map Section.bare := by
  induction sections with
  | nil => rfl
  | cons s rest ih =>
    have hnest : nest (s :: rest) = adopt s (nest rest) := rfl
    rw [hnest, walkAll_adopt, List.map_cons, List.map_cons, ih]
    rfl

/-- What a section says apart from its subsections is kept by nesting. -/
theorem map_nest {α : Type} {f : Section → α} (hf : ∀ s, f s.bare = f s) (sections : List Section) :
    (walkAll (nest sections)).map f = sections.map f := by
  have hbare : f = f ∘ Section.bare := funext fun s => (hf s).symm
  rw [hbare, ← List.map_map, map_bare_nest, List.map_map]

/-- Nesting makes sections with increasing lines regular. -/
theorem regular_nest {sections : List Section}
    (increasing : sections.Pairwise fun s t => s.startLine < t.startLine)
    (lines : ∀ s ∈ sections, s.heading.line = s.startLine ∧ 0 < s.startLine) :
    Regular (nest sections) := by
  induction sections with
  | nil => exact ⟨List.Pairwise.nil, by simp [nest], by simp [nest], by simp [nest]⟩
  | cons s rest ih =>
    obtain ⟨hs, hrest⟩ := List.pairwise_cons.1 increasing
    obtain ⟨hinc, hpos, hline, hdeep⟩ := ih hrest fun t ht => lines t (List.mem_cons_of_mem _ ht)
    have hnest : nest (s :: rest) = adopt s (nest rest) := rfl
    have hmap : (walkAll (nest rest)).map Section.startLine = rest.map Section.startLine :=
      map_nest (fun _ => rfl) rest
    obtain ⟨hl, hp⟩ := lines s List.mem_cons_self
    -- the lines of the sections behind `s` are those of `rest`
    have hlater : ∀ t ∈ walkAll (nest rest), s.startLine < t.startLine := by
      intro t ht
      have : t.startLine ∈ rest.map Section.startLine := hmap ▸ List.mem_map_of_mem ht
      obtain ⟨u, hu, he⟩ := List.mem_map.1 this
      exact he ▸ hs u hu
    rw [hnest]
    refine ⟨?_, ?_, ?_, ?_⟩
    · rw [walkAll_adopt]
      exact List.pairwise_cons.2 ⟨hlater, hinc⟩
    · rw [walkAll_adopt]
      exact List.forall_mem_cons.2 ⟨hp, hpos⟩
    · rw [walkAll_adopt]
      exact List.forall_mem_cons.2 ⟨hl, hline⟩
    · rw [walkAll_adopt]
      refine List.forall_mem_cons.2 ⟨fun t ht => ?_, hdeep⟩
      simpa using List.mem_takeWhile_imp ht

theorem regular_sectionsOf (lines : List (List Char)) {events : List Event}
    (h : (eventLines events).Pairwise (· < ·)) : Regular (sectionsOf lines events).2 := by
  have hlines : (flatSections lines (gather lines events).2).map Section.startLine =
      (eventLines events).map (· + 1) := by
    rw [← map_line_eventMarks, ← map_mark_gather lines events, ← map_mark_flatSections lines,
      List.map_map]
    rfl
  have hincreasing : (flatSections lines (gather lines events).2).Pairwise
      fun s t => s.startLine < t.startLine := by
    rw [← List.pairwise_map (f := Section.startLine) (R := (· < ·)), hlines, List.pairwise_map]
    exact h.imp Nat.succ_lt_succ
  exact regular_nest hincreasing fun s hs => line_of_mem_flatSections hs

/-- The sections of a document are those of its body. -/
theorem sections_of_parseDocument {text path : String} {d : Document}
    (h : parseDocument text path = .ok d) :
    ∃ body : List Char, d.sections = (sectionsOf (cutOn '\n' body) (documentEvents body)).2 := by
  unfold parseDocument at h
  cases hsplit : splitFrontMatter text with
  | error f => rw [hsplit] at h; cases h
  | ok split =>
    rw [hsplit] at h
    exact ⟨split.2.toList, (congrArg Document.sections (Except.ok.inj h)).symm⟩

/-- **The sections of a document that was read are regular.** -/
theorem regular_of_parseDocument {text path : String} {d : Document}
    (h : parseDocument text path = .ok d) : Regular d.sections := by
  obtain ⟨body, hbody⟩ := sections_of_parseDocument h
  rw [hbody]
  refine regular_sectionsOf _ ?_
  rw [← map_fst_eventSpans, List.pairwise_map]
  exact (eventSpans_documentEvents body).inOrder.1.increasing

/-- Four headings, the second and the last of them the same. -/
def sampleText : String := "# A\n\n## B\n\n## C\n\n## B\n"

/-- The section of a heading with nothing behind it. -/
def sampleSection (level : Nat) (text : String) (first last : Nat) (children : List Section) :
    Section :=
  ⟨⟨level, text, first, level + 2, slug text⟩, ⟨first, last, "", {}⟩, children⟩

/-- The document of these headings. -/
def sampleDocument : Document :=
  { path := ""
    text := sampleText
    frontMatter := none
    preamble := ⟨1, 8, "", {}⟩
    sections := [sampleSection 1 "A" 1 8 [sampleSection 2 "B" 3 4 [], sampleSection 2 "C" 5 6 [],
      sampleSection 2 "B" 7 8 []]] }

theorem parseDocument_sample : parseDocument sampleText "" = .ok sampleDocument := by
  have hsplit : splitFrontMatter sampleText = .ok (none, sampleText) := by cbv
  have hlines : cutOn '\n' sampleText.toList =
      ["# A".toList, [], "## B".toList, [], "## C".toList, [], "## B".toList, []] := by cbv
  have hevents : documentEvents sampleText.toList =
      [.heading 1 0 1 [.text ['A']], .heading 2 2 3 [.text ['B']], .heading 2 4 5 [.text ['C']],
        .heading 2 6 7 [.text ['B']]] := by cbv
  unfold parseDocument
  rw [hsplit]
  dsimp only [bind, Except.bind]
  rw [hlines, hevents]
  rfl

end Outline

import Outline.Proofs.Document.FrontMatter
import Outline.Proofs.Markdown.Numbers

/-!
# Places of the parts of a document

Headings, blocks and the links and images in texts are found by helpers of their own, in the lines of a
body in which the lines of front matter stand empty. **All of them point into the text of the
document** (`at_parseDocument`): to one of its lines, and to a column of it or to the one behind its end.

* `InLines`: a place in lines;
* `Elements.At`, `Section.At`, `Document.At`: all places of parts satisfy a property;
* `Gathering.At.step`: an event on the lines adds places in the lines.
-/

namespace Outline

open Markdown (Event Inline documentEvents)

/-- **A place in lines**: the number of one of them, counted from 1, and the number of a character in
it or of the place behind its end. -/
structure InLines (lines : List (List Char)) (place : Nat × Nat) : Prop where
  line_pos : 1 ≤ place.1
  line_le : place.1 ≤ lines.length
  column_pos : 1 ≤ place.2
  column_le : place.2 ≤ (lineAt lines place.1).length + 1

variable {lines : List (List Char)} {first stop : Nat} {P : Nat × Nat → Prop}

/-! ## Columns -/

theorem blockColumn_le (line : List Char) : blockColumn line ≤ line.length + 1 :=
  Nat.succ_le_succ (List.takeWhile_prefix _).length_le

theorem headingColumn_pos (line : List Char) : 1 ≤ headingColumn line := by
  unfold headingColumn
  dsimp only
  split <;> omega

theorem headingColumn_le (line : List Char) : headingColumn line ≤ line.length + 1 := by
  unfold headingColumn
  dsimp only
  have hindent : (line.takeWhile (· == ' ')).length ≤ line.length :=
    (List.takeWhile_prefix _).length_le
  have hlength := List.length_drop (i := (line.takeWhile (· == ' ')).length) (l := line)
  generalize (line.takeWhile (· == ' ')).length = indent at hindent hlength ⊢
  split
  · omega
  · have hsigns : ((line.drop indent).takeWhile (· == '#')).length ≤ (line.drop indent).length :=
      (List.takeWhile_prefix _).length_le
    have hcolumn := blockColumn_le
      ((line.drop indent).drop ((line.drop indent).takeWhile (· == '#')).length)
    rw [List.length_drop] at hcolumn
    omega

theorem inLines_blockColumn (h : first < lines.length) :
    InLines lines (first + 1, blockColumn (lineAt lines (first + 1))) :=
  ⟨Nat.succ_pos _, h, Nat.succ_pos _, blockColumn_le _⟩

theorem inLines_headingColumn (h : first < lines.length) :
    InLines lines (first + 1, headingColumn (lineAt lines (first + 1))) :=
  ⟨Nat.succ_pos _, h, headingColumn_pos _, headingColumn_le _⟩

theorem findFrom?_le {part cs : List Char} {i j : Nat} (h : Text.findFrom? part cs i = some j) :
    j ≤ i + cs.length := by
  induction cs generalizing i with
  | nil =>
    unfold Text.findFrom? at h
    split at h <;> cases h
    rfl
  | cons c cs ih =>
    unfold Text.findFrom? at h
    rw [List.length_cons]
    split at h
    · cases h
      omega
    · have hle := ih h
      omega

theorem findLastFrom?_le {part cs : List Char} {i j : Nat}
    (h : Text.findLastFrom? part cs i = some j) : j ≤ i + cs.length := by
  induction cs generalizing i with
  | nil =>
    unfold Text.findLastFrom? at h
    split at h <;> cases h
    rfl
  | cons c cs ih =>
    unfold Text.findLastFrom? at h
    rw [List.length_cons]
    split at h
    · rename_i j' hj'
      cases h
      have hle := ih hj'
      omega
    · split at h <;> cases h
      omega

/-- What is located is found in one of the lines. -/
theorem locateFrom_eq_some {needle marker : List Char} {ls : List (List Char)} {number : Nat}
    {place : Nat × Nat} (h : locateFrom needle marker number ls = some place) :
    ∃ i line, ls[i]? = some line ∧ place.1 = number + i ∧ 1 ≤ place.2 ∧
      place.2 ≤ line.length + 1 := by
  induction ls generalizing number with
  | nil => cases h
  | cons line rest ih =>
    unfold locateFrom at h
    split at h
    · rename_i i hi
      cases h
      refine ⟨0, line, rfl, rfl, Nat.succ_pos _, Nat.succ_le_succ ?_⟩
      split at hi
      · cases hi
      have hfound : i ≤ line.length := by simpa using findFrom?_le hi
      cases hlast : Text.findLast? marker (line.take (i + 1)) with
      | none => exact hfound
      | some j =>
        have hle := findLastFrom?_le hlast
        rw [List.length_take] at hle
        show j ≤ line.length
        omega
    · obtain ⟨i, line', hline', hnumber, hcolumn⟩ := ih h
      exact ⟨i + 1, line', hline', by omega, hcolumn⟩

/-- **A part of a block is located in the lines**, even where its source is not found. -/
theorem inLines_locate (h : first < lines.length) (needle marker : List Char) (stop : Nat) :
    InLines lines (locate lines needle marker first stop) := by
  unfold locate
  split
  · rename_i place hplace
    obtain ⟨i, line, hline, hnumber, hpos, hle⟩ := locateFrom_eq_some hplace
    rw [List.getElem?_drop, List.getElem?_take] at hline
    split at hline
    · obtain ⟨hlt, -⟩ := List.getElem?_eq_some_iff.1 hline
      have hat : lineAt lines place.1 = line := by
        rw [lineAt, if_neg (by omega), show place.1 - 1 = first + i by omega, hline]
        rfl
      exact ⟨by omega, by omega, hpos, hat ▸ hle⟩
    · cases hline
  · rw [if_pos h]
    exact inLines_blockColumn h

/-! ## Elements -/

/-- **The places of elements satisfy a property.** -/
structure Elements.At (P : Nat × Nat → Prop) (e : Elements) : Prop where
  codeBlocks : ∀ b ∈ e.codeBlocks, P (b.line, b.column)
  tables : ∀ t ∈ e.tables, P (t.line, t.column)
  links : ∀ l ∈ e.links, P (l.line, l.column)
  images : ∀ i ∈ e.images, P (i.line, i.column)
  lists : ∀ l ∈ e.lists, P (l.line, l.column)

theorem Elements.at_empty (P : Nat × Nat → Prop) : Elements.At P {} := by
  constructor <;> exact List.forall_mem_nil _

theorem Elements.At.mono {Q : Nat × Nat → Prop} {e : Elements} (h : e.At P)
    (hPQ : ∀ place, P place → Q place) : e.At Q where
  codeBlocks b hb := hPQ _ (h.codeBlocks b hb)
  tables t ht := hPQ _ (h.tables t ht)
  links l hl := hPQ _ (h.links l hl)
  images i hi := hPQ _ (h.images i hi)
  lists l hl := hPQ _ (h.lists l hl)

theorem at_linksIn (h : first < lines.length) (pieces : List Inline) :
    ∀ l ∈ linksIn lines first stop pieces, InLines lines (l.line, l.column) := by
  induction pieces with
  | nil => exact List.forall_mem_nil _
  | cons piece pieces ih =>
    cases piece with
    | linkStart address bare =>
      unfold linksIn
      cases bare
      · exact List.forall_mem_cons.2 ⟨inLines_locate h _ _ _, ih⟩
      · exact List.forall_mem_cons.2 ⟨inLines_locate h _ _ _, ih⟩
    | _ => exact ih

theorem at_imagesIn (h : first < lines.length) (pieces : List Inline) :
    ∀ i ∈ imagesIn lines first stop pieces, InLines lines (i.line, i.column) := by
  induction pieces with
  | nil => exact List.forall_mem_nil _
  | cons piece pieces ih =>
    cases piece with
    | image address alt =>
      exact List.forall_mem_cons.2 ⟨inLines_locate h _ _ _, ih⟩
    | _ => exact ih

section

variable {α : Type} {Q : α → Prop} {f : α → α} (hf : ∀ a, Q a → Q (f a))

include hf

theorem forall_mem_modifyLast : ∀ {l : List α}, (∀ a ∈ l, Q a) → ∀ a ∈ modifyLast f l, Q a
  | [], _ => List.forall_mem_nil _
  | [a], h => List.forall_mem_singleton.2 (hf a (h a List.mem_cons_self))
  | a :: b :: as, h => by
    obtain ⟨ha, has⟩ := List.forall_mem_cons.1 h
    exact List.forall_mem_cons.2 ⟨ha, forall_mem_modifyLast has⟩

theorem forall_mem_modifyAt : ∀ {place : Nat} {l : List α}, (∀ a ∈ l, Q a) →
    ∀ a ∈ modifyAt f place l, Q a
  | _, [], _ => by
    unfold modifyAt
    exact List.forall_mem_nil _
  | 0, a :: as, h => by
    obtain ⟨ha, has⟩ := List.forall_mem_cons.1 h
    exact List.forall_mem_cons.2 ⟨hf a ha, has⟩
  | place + 1, a :: as, h => by
    obtain ⟨ha, has⟩ := List.forall_mem_cons.1 h
    exact List.forall_mem_cons.2 ⟨ha, forall_mem_modifyAt has⟩

end

/-! ## Gathering -/

namespace Gathering

/-- **The places of what has been gathered satisfy a property**, and its headings stand on lines. -/
structure At (P : Nat × Nat → Prop) (total : Nat) (g : Gathering) : Prop where
  preamble : g.preamble.At P
  entries : ∀ e ∈ g.entries, e.first < total ∧ e.elements.At P

variable {g : Gathering} {total : Nat}

theorem At.change (h : g.At P total) {f : Elements → Elements}
    (hf : ∀ e, e.At P → (f e).At P) : (g.change f).At P total := by
  obtain ⟨hpreamble, hentries⟩ := h
  unfold Gathering.change
  split
  · rename_i hnil
    exact ⟨hf _ hpreamble, hnil ▸ List.forall_mem_nil _⟩
  · rename_i e es hcons
    rw [hcons] at hentries
    obtain ⟨⟨hfirst, he⟩, hes⟩ := List.forall_mem_cons.1 hentries
    exact ⟨hpreamble, List.forall_mem_cons.2 ⟨⟨hfirst, hf _ he⟩, hes⟩⟩

/-- **An event on the lines adds places in the lines.** -/
theorem At.step (h : g.At (InLines lines) lines.length) {event : Event}
    (hevent : ∀ n ∈ event.first?, n < lines.length) :
    (g.step lines event).At (InLines lines) lines.length := by
  unfold Gathering.step
  cases event with
  | heading level first stop pieces =>
    have hfirst := hevent first rfl
    exact ⟨h.preamble, List.forall_mem_cons.2 ⟨⟨hfirst, Elements.at_empty _⟩, h.entries⟩⟩
  | fence first info =>
    have hplace := inLines_blockColumn (hevent first rfl)
    refine h.change fun e he => ⟨?_, he.tables, he.links, he.images, he.lists⟩
    exact List.forall_mem_append.2 ⟨he.codeBlocks, List.forall_mem_singleton.2 hplace⟩
  | listStart ordered first =>
    have hplace := inLines_blockColumn (hevent first rfl)
    have hlists (e : Elements) (he : e.At (InLines lines)) : Elements.At (InLines lines)
        { e with lists := e.lists ++ [⟨ordered, 0, first + 1, _⟩] } :=
      ⟨he.codeBlocks, he.tables, he.links, he.images,
        List.forall_mem_append.2 ⟨he.lists, List.forall_mem_singleton.2 hplace⟩⟩
    exact ⟨(h.change hlists).preamble, (h.change hlists).entries⟩
  | item =>
    dsimp only
    split
    · exact h
    · -- an item counts in a list, whose place it does not change
      refine h.change fun e he => ⟨he.codeBlocks, he.tables, he.links, he.images, ?_⟩
      refine forall_mem_modifyAt ?_ he.lists
      exact fun _ hl => hl
  | tableStart first =>
    have hplace := inLines_blockColumn (hevent first rfl)
    have htables (e : Elements) (he : e.At (InLines lines)) : Elements.At (InLines lines)
        { e with tables := e.tables ++ [⟨[], first + 1, _⟩] } :=
      ⟨he.codeBlocks, List.forall_mem_append.2 ⟨he.tables, List.forall_mem_singleton.2 hplace⟩,
        he.links, he.images, he.lists⟩
    exact ⟨(h.change htables).preamble, (h.change htables).entries⟩
  | text first stop pieces =>
    have hfirst := hevent first rfl
    refine h.change fun e he => ⟨he.codeBlocks, ?_, ?_, ?_, he.lists⟩
    · -- a text in the head of a table is one of its headers
      dsimp only
      split
      · refine forall_mem_modifyLast ?_ he.tables
        exact fun _ ht => ht
      · exact he.tables
    · exact List.forall_mem_append.2 ⟨he.links, at_linksIn hfirst pieces⟩
    · exact List.forall_mem_append.2 ⟨he.images, at_imagesIn hfirst pieces⟩
  | listEnd | headStart | headEnd | tableEnd => exact ⟨h.preamble, h.entries⟩

/-- Events on the lines gather places in the lines. -/
theorem At.foldl {events : List Event} : ∀ {g : Gathering}, g.At (InLines lines) lines.length →
    (∀ event ∈ events, ∀ n ∈ event.first?, n < lines.length) →
      (events.foldl (Gathering.step lines) g).At (InLines lines) lines.length := by
  induction events with
  | nil => exact fun h _ => h
  | cons event events ih =>
    intro g h hevents
    obtain ⟨hevent, hrest⟩ := List.forall_mem_cons.1 hevents
    exact ih (h.step hevent) hrest

end Gathering

/-! ## Sections -/

/-- **The places of a section satisfy a property**, that of its heading and those of its elements. -/
structure Section.At (P : Nat × Nat → Prop) (s : Section) : Prop where
  heading : P (s.heading.line, s.heading.column)
  elements : s.body.elements.At P

theorem Section.At.mono {Q : Nat × Nat → Prop} {s : Section} (h : s.At P)
    (hPQ : ∀ place, P place → Q place) : s.At Q :=
  ⟨hPQ _ h.heading, h.elements.mono hPQ⟩

theorem at_flatSections {entries : List Entry}
    (h : ∀ e ∈ entries, e.first < lines.length ∧ e.elements.At (InLines lines)) :
    ∀ s ∈ flatSections lines entries, s.At (InLines lines) := by
  induction entries with
  | nil => exact List.forall_mem_nil _
  | cons e es ih =>
    obtain ⟨⟨hfirst, helements⟩, hes⟩ := List.forall_mem_cons.1 h
    exact List.forall_mem_cons.2 ⟨⟨inLines_headingColumn hfirst, helements⟩, ih hes⟩

/-- Nesting changes no places. -/
theorem at_nest {sections : List Section} (h : ∀ s ∈ sections, s.At P) :
    ∀ s ∈ walkAll (nest sections), s.At P := by
  intro s hs
  have hbare : s.bare ∈ sections.map Section.bare := by
    rw [← map_bare_nest]
    exact List.mem_map_of_mem hs
  obtain ⟨s', hs', heq⟩ := List.mem_map.1 hbare
  obtain ⟨hheading, helements⟩ := h s' hs'
  have hself : s'.bare.heading = s.bare.heading := congrArg Section.heading heq
  have hbody : s'.bare.body = s.bare.body := congrArg Section.body heq
  exact ⟨(hself : s'.heading = s.heading) ▸ hheading, (hbody : s'.body = s.body) ▸ helements⟩

/-- **Events on the lines give sections with places in the lines.** -/
theorem at_sectionsOf {events : List Event}
    (h : ∀ event ∈ events, ∀ n ∈ event.first?, n < lines.length) :
    (sectionsOf lines events).1.elements.At (InLines lines) ∧
      ∀ s ∈ walkAll (sectionsOf lines events).2, s.At (InLines lines) := by
  have hgathered : (events.foldl (Gathering.step lines) {}).At (InLines lines) lines.length :=
    Gathering.At.foldl ⟨Elements.at_empty _, List.forall_mem_nil _⟩ h
  exact ⟨hgathered.preamble, at_nest (at_flatSections fun e he =>
    hgathered.entries e (List.mem_reverse.1 he))⟩

/-! ## Lines of the body -/

variable {ls : List (List Char)} {close : Nat}

/-- A line of the body is empty or the line of the text. -/
theorem lineAt_bodyLines (ls : List (List Char)) (close number : Nat) :
    lineAt (bodyLines ls close) number = [] ∨
      lineAt (bodyLines ls close) number = lineAt ls number := by
  unfold lineAt
  split
  · exact .inl rfl
  · by_cases hfront : number - 1 < close + 1
    · left
      rw [bodyLines, List.getElem?_append_left (by simpa using hfront),
        List.getElem?_replicate_of_lt hfront]
      rfl
    · right
      rw [bodyLines, List.getElem?_append_right (by rw [List.length_replicate]; omega),
        List.length_replicate,
        List.getElem?_drop, Nat.add_sub_cancel' (by omega)]

/-- A place in the body is one in the text. -/
theorem inLines_of_bodyLines (hclose : close < ls.length) {place : Nat × Nat}
    (h : InLines (bodyLines ls close) place) : InLines ls place := by
  obtain ⟨hline, hlast, hcolumn, hend⟩ := h
  refine ⟨hline, length_bodyLines hclose ▸ hlast, hcolumn, hend.trans ?_⟩
  rcases lineAt_bodyLines ls close place.1 with heq | heq <;> rw [heq]
  exact Nat.succ_le_succ (Nat.zero_le _)

/-- **The places in the body are places in the text**, and the body has no carriage returns if the text
has none. -/
theorem places_of_splitFrontMatter {text body : String} {frontMatter : Option FrontMatter}
    (h : splitFrontMatter text = .ok (frontMatter, body)) (hreturn : '\r' ∉ text.toList) :
    '\r' ∉ body.toList ∧ ∀ place, InLines (cutOn '\n' body.toList) place →
      InLines (cutOn '\n' text.toList) place := by
  rcases splitFrontMatter_eq_ok h with ⟨-, -, rfl⟩ | ⟨close, _, hclose, -, rfl⟩
  · exact ⟨hreturn, fun _ hplace => hplace⟩
  · rw [toList_bodyBehind]
    rw [cutOn_joinLines_bodyLines]
    refine ⟨fun hmem => ?_, fun place => inLines_of_bodyLines (length_of_closingLine? hclose)⟩
    rcases eq_or_mem_of_mem_intercalate hmem with heq | ⟨l, hl, hmem⟩
    · exact absurd heq (by decide)
    · exact hreturn (mem_of_mem_bodyLines hl _ hmem).1

/-! ## Documents -/

/-- **The places in a document satisfy a property.** -/
structure Document.At (P : Nat × Nat → Prop) (d : Document) : Prop where
  preamble : d.preamble.elements.At P
  sections : ∀ s ∈ d.allSections, s.At P

/-- **All parts of a document that was read are placed in its text.** -/
theorem at_parseDocument {text path : String} {d : Document}
    (h : parseDocument text path = .ok d) (hreturn : '\r' ∉ text.toList) :
    d.At (InLines (cutOn '\n' text.toList)) := by
  obtain ⟨⟨frontMatter, body⟩, hsplit, h⟩ := bind_eq_ok.1 h
  obtain ⟨hbody, hplaces⟩ := places_of_splitFrontMatter hsplit hreturn
  cases h
  obtain ⟨hpreamble, hsections⟩ := at_sectionsOf (Markdown.first_lt_of_documentEvents hbody)
  exact ⟨hpreamble.mono hplaces, fun s hs => (hsections s hs).mono hplaces⟩

end Outline

import Outline.Proofs.Document.Passages
import Outline.Proofs.Document.Search
import Outline.Proofs.Markdown.Stretches

/-!
# Where links are recorded

The place of a link is searched for in the lines of its block, from the first of them on, whatever
other links stand there. So a link is recorded at its own bracket exactly if the search for what
closes it leads there, and links of one block that lead to the same address are recorded at the same
place (**`placed_parseDocument`**).

* `Gathering.links`: the links that have been gathered;
* `LinkMark.place`: where a link is recorded;
* `LinksPlaced`: the links of a document, their own brackets, and where they are recorded.
-/

namespace Outline

open Markdown

/-! ## Gathering -/

/-- All links that have been gathered, in order. -/
def Gathering.links (g : Gathering) : List Link :=
  g.preamble.links ++ g.entries.reverse.flatMap (·.elements.links)

/-- The links that an event adds. -/
def linksOf (lines : List (List Char)) : Event → List Link
  | .text first stop pieces => linksIn lines first stop pieces
  | _ => []

/-- Links are added behind those that have been gathered. -/
theorem Gathering.links_change (g : Gathering) {f : Elements → Elements} {more : List Link}
    (hf : ∀ e, (f e).links = e.links ++ more) : (g.change f).links = g.links ++ more := by
  unfold Gathering.links Gathering.change
  cases hentries : g.entries with
  | nil =>
    simp only [List.reverse_nil, List.flatMap_nil, List.append_nil]
    exact hf _
  | cons e es =>
    simp only [List.reverse_cons, List.flatMap_append, List.flatMap_singleton, hf,
      List.append_assoc]

theorem Gathering.links_step (lines : List (List Char)) (g : Gathering) (event : Event) :
    (g.step lines event).links = g.links ++ linksOf lines event := by
  have hsame {f : Elements → Elements} (hf : ∀ e, (f e).links = e.links) :
      (g.change f).links = g.links ++ [] :=
    g.links_change fun e => (hf e).trans (List.append_nil _).symm
  cases event with
  | heading level first stop pieces =>
    simp [Gathering.step, Gathering.links, linksOf]
  | listEnd | headStart | headEnd | tableEnd => exact (List.append_nil _).symm
  | fence => exact hsame fun _ => rfl
  | listStart => exact hsame fun _ => rfl
  | tableStart => exact hsame fun _ => rfl
  | item =>
    unfold Gathering.step
    dsimp only
    split
    · exact (List.append_nil _).symm
    · exact hsame fun _ => rfl
  | text first stop pieces => exact g.links_change fun _ => rfl

/-- The links of events are gathered in order. -/
theorem Gathering.links_foldl (lines : List (List Char)) (events : List Event) : ∀ g : Gathering,
    (events.foldl (Gathering.step lines) g).links = g.links ++ events.flatMap (linksOf lines) := by
  induction events with
  | nil => exact fun g => (List.append_nil _).symm
  | cons event events ih =>
    intro g
    rw [List.foldl_cons, ih, g.links_step, List.flatMap_cons, List.append_assoc]

theorem map_links_flatSections (lines : List (List Char)) (entries : List Entry) :
    (flatSections lines entries).map (·.body.elements.links) =
      entries.map (·.elements.links) := by
  induction entries with
  | nil => rfl
  | cons e es ih => exact congrArg (e.elements.links :: ·) ih

/-- **The links of a document are those of its events**, in the same order. -/
theorem links_of_sectionsOf {lines : List (List Char)} {events : List Event} {d : Document}
    (h : sectionsOf lines events = (d.preamble, d.sections)) :
    d.links = events.flatMap (linksOf lines) := by
  have hgathered := Gathering.links_foldl lines events {}
  obtain ⟨hpreamble, hsections⟩ := Prod.mk.inj h
  rw [Document.links, Document.allSections, ← hpreamble, ← hsections, List.flatMap_def,
    map_nest (fun _ => rfl), map_links_flatSections]
  exact hgathered

/-! ## Events and texts -/

/-- The links of a text. -/
def Markdown.Stretch.links (lines : List (List Char)) (labels : Labels) (t : Stretch) : List Link :=
  linksIn lines t.first t.stop (inlinesOf labels t.chars)

section

variable (lines : List (List Char)) (labels : Labels)

theorem links_rowEvents (line : Nat) (cells : List (List Char)) : ∀ skipped,
    (rowEvents labels line cells).flatMap (linksOf lines) =
      (cellTexts line skipped cells).flatMap (Stretch.links lines labels) := by
  induction cells with
  | nil => exact fun _ => rfl
  | cons cell cells ih =>
    intro skipped
    exact congrArg (linksIn lines line (line + 1) (inlinesOf labels cell) ++ ·) (ih _)

mutual

/-- The links of a block are those of its texts. -/
theorem links_blockEvents (top : Bool) : ∀ b : Block,
    (blockEvents labels top b).flatMap (linksOf lines) =
      (blockTexts top b).flatMap (Stretch.links lines labels)
  | .heading level first textStop stop text => by
    cases top with
    | true => rfl
    | false => rfl
  | .paragraph .. => rfl
  | .fence .. => rfl
  | .quote blocks => links_eventsOf false blocks
  | .list ordered first items => by
    have hitems := links_itemEvents items
    rw [blockEvents, List.cons_append, List.flatMap_cons, List.flatMap_append, hitems]
    exact List.append_nil _
  | .table first header rows => by
    have hrows : (rows.flatMap fun row => rowEvents labels row.1 row.2).flatMap (linksOf lines) =
        (rows.flatMap fun row => cellTexts row.1 0 row.2).flatMap (Stretch.links lines labels) := by
      rw [List.flatMap_assoc, List.flatMap_assoc]
      exact List.flatMap_congr fun row _ => links_rowEvents lines labels row.1 row.2 0
    simp only [blockEvents, blockTexts, List.cons_append, List.flatMap_cons, List.flatMap_append,
      List.flatMap_nil, links_rowEvents lines labels first header 0, hrows, linksOf,
      List.nil_append, List.append_nil]
  | .definition .. => rfl

theorem links_eventsOf (top : Bool) : ∀ blocks : List Block,
    (eventsOf labels top blocks).flatMap (linksOf lines) =
      (textsOf top blocks).flatMap (Stretch.links lines labels)
  | [] => rfl
  | b :: bs => by
    rw [eventsOf, textsOf, List.flatMap_append, List.flatMap_append, links_blockEvents top b,
      links_eventsOf top bs]

theorem links_itemEvents : ∀ items : List (List Block),
    (itemEvents labels items).flatMap (linksOf lines) =
      (itemTexts items).flatMap (Stretch.links lines labels)
  | [] => rfl
  | bs :: rest => by
    rw [itemEvents, itemTexts, List.cons_append, List.flatMap_cons, List.flatMap_append,
      List.flatMap_append, links_eventsOf false bs, links_itemEvents rest]
    rfl

end

end

/-! ## Places -/

/-- Where a link is recorded: at the bracket that the search for what closes it finds. -/
def Markdown.LinkMark.place (lines : List (List Char)) (m : LinkMark) : Nat × Nat :=
  if m.bare then locate lines m.address ['<'] m.first m.stop
  else locate lines (']' :: '(' :: m.address) ['['] m.first m.stop

/-- A link of a text, recorded where the search finds it. -/
structure Markdown.LinkMark.FoundAs (lines : List (List Char)) (m : LinkMark) (l : Link) :
    Prop where
  url : l.url = String.ofList m.address
  place : (l.line, l.column) = m.place lines

/-- The links among pieces are recorded one by one. -/
theorem forall₂_linksIn (lines : List (List Char)) {first stop : Nat} {marks : List LinkMark}
    (hlines : ∀ m ∈ marks, m.first = first ∧ m.stop = stop) : ∀ {pieces : List Inline},
    linkStarts pieces = marks.map (fun m => (m.address, m.bare)) →
      List.Forall₂ (LinkMark.FoundAs lines) marks (linksIn lines first stop pieces) := by
  intro pieces
  induction pieces generalizing marks with
  | nil =>
    intro h
    cases marks with
    | nil => exact .nil
    | cons => cases h
  | cons piece pieces ih =>
    intro h
    cases piece with
    | linkStart address bare =>
      cases marks with
      | nil => cases h
      | cons m marks =>
        obtain ⟨hm, hmarks⟩ := List.forall_mem_cons.1 hlines
        obtain ⟨hstart, hrest⟩ := List.cons.inj h
        obtain ⟨rfl, rfl⟩ := Prod.mk.inj hstart
        obtain ⟨rfl, rfl⟩ := hm
        refine .cons ⟨rfl, ?_⟩ (ih hmarks hrest)
        rfl
    | _ => exact ih hlines h

/-- The links of a text are recorded one by one. -/
theorem forall₂_marks (lines pieces : List (List Char)) (labels : Labels) (t : Stretch) :
    List.Forall₂ (LinkMark.FoundAs lines) (t.marks pieces labels) (t.links lines labels) := by
  refine forall₂_linksIn lines (fun m hm => ?_) ?_
  · obtain ⟨l, -, rfl⟩ := List.mem_map.1 hm
    exact ⟨rfl, rfl⟩
  · rw [linkStarts_inlinesOf, Stretch.marks, List.map_map]
    rfl

/-- **The links of a document are recorded one by one**, each where the search finds it. -/
theorem forall₂_linkMarks (lines : List (List Char)) (body : List Char) :
    List.Forall₂ (LinkMark.FoundAs lines) (linkMarks body)
      ((documentEvents body).flatMap (linksOf lines)) := by
  rw [documentEvents, links_eventsOf, linkMarks]
  induction textsOf true (blocksOf body) with
  | nil => exact .nil
  | cons t ts ih =>
    rw [List.flatMap_cons, List.flatMap_cons]
    exact List.rel_append (forall₂_marks _ _ _ t) ih

/-! ## Own brackets -/

/-- The line and the column of the bracket that a link begins with. -/
def Markdown.LinkMark.bracket? (lines : List (List Char)) (m : LinkMark) : Option (Nat × Nat) :=
  (bracketPlaces 1 lines)[m.number]?

/-- **Where a link with a bracket is recorded**: it begins with a bracket of the lines, and is
recorded there exactly if the search for what closes the link leads there. -/
structure Markdown.LinkMark.PlacedAs (lines : List (List Char)) (m : LinkMark) (l : Link) :
    Prop where
  url : l.url = String.ofList m.address
  own : m.bare = false → ∃ row place cs, m.bracket? lines = some (row + 1, place + 1) ∧
    lines[row]? = some cs ∧ cs[place]? = some '[' ∧
      (m.bracket? lines = some (l.line, l.column) ↔
        LeadsTo lines (']' :: '(' :: m.address) m.first m.stop row place cs)

/-- **The links of a document, their own brackets, and where they are recorded.** The links with
brackets begin one behind the other. Each of them is recorded at its own bracket exactly if the
search leads there; links that are recorded so are recorded at different places. Links of one block
with the same address are recorded at the same place. -/
structure LinksPlaced (body : List Char) (links : List Link) : Prop where
  each : List.Forall₂ (LinkMark.PlacedAs (cutOn '\n' body)) (linkMarks body) links
  increasing : (bracketMarks (linkMarks body)).Pairwise fun m m' => m.number < m'.number
  apart : (∀ p ∈ (linkMarks body).zip links, p.1.bare = false ∧
      p.1.bracket? (cutOn '\n' body) = some (p.2.line, p.2.column)) →
    links.Pairwise fun l l' => (l.line, l.column) ≠ (l'.line, l'.column)
  shared : ∀ p ∈ (linkMarks body).zip links, ∀ q ∈ (linkMarks body).zip links,
    p.1.first = q.1.first → p.1.stop = q.1.stop → p.1.address = q.1.address →
      p.1.bare = q.1.bare → (p.2.line, p.2.column) = (q.2.line, q.2.column)

/-- A link with a bracket has one of those of the document. -/
theorem exists_bracket {body : List Char} {m : LinkMark} (hm : m ∈ linkMarks body)
    (hbare : m.bare = false) : ∃ row place cs,
      m.bracket? (cutOn '\n' body) = some (row + 1, place + 1) ∧
        (cutOn '\n' body)[row]? = some cs ∧ cs[place]? = some '[' := by
  have hlt := ((inRow_linkMarks body).apart.2 m
    (List.mem_filter.2 ⟨hm, by rw [hbare]; rfl⟩)).2
  rw [bracketsIn_cutOn, count_normalized, ← bracketsIn_cutOn, ← length_bracketPlaces _ 1] at hlt
  obtain ⟨row, place, cs, hplace, hcs, hbracket⟩ :=
    exists_of_mem_bracketPlaces (List.getElem_mem hlt)
  refine ⟨row, place, cs, ?_, hcs, hbracket⟩
  rw [LinkMark.bracket?, List.getElem?_eq_getElem hlt, hplace, Nat.add_comm]

/-- **A link is recorded at its own bracket exactly if the search leads there.** -/
theorem placedAs_of_foundAs {body : List Char} {m : LinkMark} {l : Link}
    (h : m.FoundAs (cutOn '\n' body) l) (hm : m ∈ linkMarks body) :
    m.PlacedAs (cutOn '\n' body) l := by
  refine ⟨h.url, fun hbare => ?_⟩
  obtain ⟨row, place, cs, hbracket, hcs, hchar⟩ := exists_bracket hm hbare
  refine ⟨row, place, cs, hbracket, hcs, hchar, ?_⟩
  rw [hbracket, h.place, LinkMark.place, hbare, if_neg Bool.false_ne_true, Option.some_inj, eq_comm]
  exact locate_eq_iff (List.cons_ne_nil _ _) hcs hchar

/-- Links at their own brackets are at different places. -/
theorem pairwise_of_brackets {lines : List (List Char)} {pairs : List (LinkMark × Link)}
    (hown : ∀ p ∈ pairs, p.1.bracket? lines = some (p.2.line, p.2.column))
    (hnumbers : pairs.Pairwise fun p q => p.1.number < q.1.number) :
    pairs.Pairwise fun p q => (p.2.line, p.2.column) ≠ (q.2.line, q.2.column) := by
  refine hnumbers.imp_of_mem fun {p q} hp hq hlt heq => ?_
  obtain ⟨hp, hplace⟩ := List.getElem?_eq_some_iff.1 (hown p hp)
  obtain ⟨hq, hplace'⟩ := List.getElem?_eq_some_iff.1 (hown q hq)
  have hnumber := (nodup_bracketPlaces lines 1).getElem_inj_iff.1
    (hplace.trans (heq.trans hplace'.symm))
  omega

/-- **How the links of a body are placed.** -/
theorem linksPlaced_of_foundAs {body : List Char} {links : List Link}
    (h : List.Forall₂ (LinkMark.FoundAs (cutOn '\n' body)) (linkMarks body) links) :
    LinksPlaced body links := by
  obtain ⟨hlength, hfound⟩ := List.forall₂_iff_zip.1 h
  have hincreasing := (inRow_linkMarks body).apart.1
  refine ⟨?_, hincreasing, fun hown => ?_, fun p hp q hq hfirst hstop haddress hbare => ?_⟩
  · exact List.forall₂_iff_zip.2 ⟨hlength, fun hp =>
      placedAs_of_foundAs (hfound hp) (List.of_mem_zip hp).1⟩
  · have hfst : ((linkMarks body).zip links).map Prod.fst = linkMarks body :=
      List.map_fst_zip hlength.le
    have hsnd : ((linkMarks body).zip links).map Prod.snd = links :=
      List.map_snd_zip hlength.ge
    have hall : bracketMarks (linkMarks body) = linkMarks body := by
      refine List.filter_eq_self.2 fun m hm => ?_
      rw [← hfst] at hm
      obtain ⟨p, hp, rfl⟩ := List.mem_map.1 hm
      rw [(hown p hp).1]
      rfl
    rw [hall, ← hfst, List.pairwise_map] at hincreasing
    rw [← hsnd, List.pairwise_map]
    exact pairwise_of_brackets (fun p hp => (hown p hp).2) hincreasing
  · rw [(hfound hp).place, (hfound hq).place, LinkMark.place, LinkMark.place, hfirst, hstop,
      haddress, hbare]

/-- **The links of a document are recorded where the search for their brackets leads**, which may be
the bracket of another link. -/
theorem placed_parseDocument {text path : String} {d : Document}
    (h : parseDocument text path = .ok d) : ∃ frontMatter body,
      splitFrontMatter text = .ok (frontMatter, body) ∧ LinksPlaced body.toList d.links := by
  obtain ⟨⟨frontMatter, body⟩, hsplit, h⟩ := bind_eq_ok.1 h
  have hsections : sectionsOf (cutOn '\n' body.toList) (documentEvents body.toList) =
      (d.preamble, d.sections) := by
    dsimp only at h
    generalize sectionsOf (cutOn '\n' body.toList) (documentEvents body.toList) = outcome at h ⊢
    cases h
    rfl
  refine ⟨frontMatter, body, hsplit, linksPlaced_of_foundAs ?_⟩
  rw [links_of_sectionsOf hsections]
  exact forall₂_linkMarks _ _

/-! ### Links with the same address -/

/-- Two links with the same address. -/
def twiceLinked : String := "[a](b) [c](b)"

/-- Both links are recorded at the bracket of the first one. -/
theorem secondLink_misplaced :
    (parseDocument twiceLinked "").toOption.map
        (fun d => d.links.map fun l => (l.url, l.line, l.column)) =
      some [("b", 1, 1), ("b", 1, 1)] ∧
    (linkMarks twiceLinked.toList).map
        (fun m => (m.bare, m.bracket? (cutOn '\n' twiceLinked.toList))) =
      [(false, some (1, 1)), (false, some (1, 8))] := by
  decide +kernel

theorem placed_twiceLinked : ∃ d, parseDocument twiceLinked "" = .ok d ∧
    ∃ frontMatter body, splitFrontMatter twiceLinked = .ok (frontMatter, body) ∧
      LinksPlaced body.toList d.links := by
  have hread : (parseDocument twiceLinked "").isOk = true := by decide +kernel
  cases h : parseDocument twiceLinked "" with
  | ok d => exact ⟨d, rfl, placed_parseDocument h⟩
  | error fault =>
    rw [h] at hread
    cases hread

end Outline

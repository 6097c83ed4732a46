import Outline.Proofs.Document.Lines
import Outline.Proofs.Text.Blank

/-!
# Headings of a document

The headings of a document that was read have a level, and their texts are stripped
(`proper_of_parseDocument`). Nesting looks at levels only, so **sections nest alike exactly if their
headings have the same levels and texts, in order** (`alike_sections_iff`).

* `Heading.Proper`: a heading with a level and a stripped text;
* `Heading.key`: the level and the text of a heading;
* `Alike`: sections with headings of the same keys, nested in the same way.
-/

namespace Outline

namespace Markdown

/-! ## Levels of blocks -/

/-- A heading has a level. -/
def Block.Leveled : Block → Prop
  | .heading level _ _ _ _ => 0 < level
  | _ => True

theorem underlined?_pos {k : Inside} {ls : List Line} {level more : Nat}
    (h : underlined? k ls = some (level, more)) : 0 < level := by
  obtain ⟨⟨l, -, -, hlevel⟩, -⟩ := underlined?_eq_some h
  obtain ⟨-, -, -, ⟨-, rfl⟩ | ⟨-, rfl⟩, -⟩ := underline?_eq_some hlevel <;> decide

theorem atx?_pos {body text : List Char} {level : Nat} (h : atx? body = some (level, text)) :
    0 < level := by
  unfold atx? at h
  dsimp only at h
  split at h
  · rename_i hsigns
    obtain ⟨rfl, -⟩ := Prod.mk.inj (Option.some.inj h)
    simp only [Bool.and_eq_true, decide_eq_true_iff] at hsigns
    exact hsigns.1.1
  · cases h

theorem leveled_textBlock (k : Inside) (l : Line) (rest : List Line) :
    ∀ b ∈ (textBlock k l rest).1, b.Leveled := by
  unfold textBlock
  split
  · rename_i level text h
    exact List.forall_mem_singleton.2 (atx?_pos h)
  · split
    · rename_i level more h
      exact List.forall_mem_singleton.2 (underlined?_pos h)
    · exact List.forall_mem_singleton.2 trivial

theorem leveled_plainBlock (k : Inside) (l : Line) (rest : List Line) :
    ∀ b ∈ (plainBlock k l rest).1, b.Leveled := by
  unfold plainBlock
  split
  · exact List.forall_mem_singleton.2 trivial
  · split
    · exact fun _ h => absurd h List.not_mem_nil
    · exact leveled_textBlock k l rest

theorem leveled_readBlock (nested : Reader) (k : Inside) (l : Line) (rest : List Line) :
    ∀ b ∈ (readBlock nested k l rest).1, b.Leveled := by
  unfold readBlock
  split
  · exact List.forall_mem_singleton.2 trivial
  split
  · exact fun _ h => absurd h List.not_mem_nil
  split
  · exact List.forall_mem_singleton.2 trivial
  split
  · exact List.forall_mem_singleton.2 trivial
  split
  · exact fun _ h => absurd h List.not_mem_nil
  split
  · exact List.forall_mem_singleton.2 trivial
  · exact leveled_plainBlock k l rest

/-- **The headings that are read have a level.** -/
theorem leveled_readBlocks (nested : Reader) (k : Inside) : ∀ (fuel : Nat) (ls : List Line),
    ∀ b ∈ (readBlocks nested k fuel ls).1, b.Leveled
  | 0, _ => fun _ h => absurd h List.not_mem_nil
  | fuel + 1, ls => by
    unfold readBlocks
    dsimp only
    split
    · exact fun _ h => absurd h List.not_mem_nil
    · rename_i l rest heq
      split
      · exact fun _ h => absurd h List.not_mem_nil
      split
      · exact fun _ h => absurd h List.not_mem_nil
      · exact List.forall_mem_append.2 ⟨leveled_readBlock nested k l rest,
          leveled_readBlocks nested k fuel _⟩

/-! ## Levels of events -/

/-- A heading has a level. -/
def Event.Leveled : Event → Prop
  | .heading level _ _ _ => 0 < level
  | _ => True

/-- Where there are no headings, there are none without a level. -/
theorem leveled_of_eventSpans {events : List Event} (h : eventSpans events = []) :
    ∀ event ∈ events, event.Leveled := by
  intro event hevent
  cases event with
  | heading level first stop pieces =>
    have := List.filterMap_eq_nil_iff.1 h _ hevent
    cases this
  | _ => trivial

theorem leveled_blockEvents (labels : Labels) {b : Block} (h : b.Leveled) :
    ∀ event ∈ blockEvents labels true b, event.Leveled := by
  cases b with
  | heading => exact List.forall_mem_singleton.2 h
  | paragraph | fence => exact List.forall_mem_singleton.2 trivial
  | definition => exact fun _ h => absurd h List.not_mem_nil
  | quote blocks => exact leveled_of_eventSpans (eventSpans_eventsOf_inside labels blocks)
  | list ordered first items =>
    exact leveled_of_eventSpans (eventSpans_blockEvents_inside labels (.list ordered first items))
  | table first header rows =>
    exact leveled_of_eventSpans (eventSpans_table labels true first header rows)

theorem leveled_eventsOf (labels : Labels) {blocks : List Block} (h : ∀ b ∈ blocks, b.Leveled) :
    ∀ event ∈ eventsOf labels true blocks, event.Leveled := by
  induction blocks with
  | nil => exact fun _ h => absurd h List.not_mem_nil
  | cons b bs ih =>
    obtain ⟨hb, hbs⟩ := List.forall_mem_cons.1 h
    exact List.forall_mem_append.2 ⟨leveled_blockEvents labels hb, ih hbs⟩

theorem leveled_documentEvents (text : List Char) :
    ∀ event ∈ documentEvents text, event.Leveled :=
  leveled_eventsOf _ (leveled_readBlocks _ _ _ _)

end Markdown

open Markdown

/-! ## Proper headings -/

/-- A heading with a level and a stripped text. -/
structure Heading.Proper (h : Heading) : Prop where
  level : 0 < h.level
  text : strip h.text = h.text

/-- An entry with a level and a trimmed text. -/
def Entry.Proper (e : Entry) : Prop := 0 < e.level ∧ trim isBlank e.text = e.text

namespace Gathering

theorem proper_change {g : Gathering} (h : ∀ e ∈ g.entries, e.Proper) (f : Elements → Elements) :
    ∀ e ∈ (g.change f).entries, e.Proper := by
  unfold change
  split
  · exact h
  · rename_i e es hentries
    rw [hentries, List.forall_mem_cons] at h
    exact List.forall_mem_cons.2 h

theorem proper_step (lines : List (List Char)) {g : Gathering} (h : ∀ e ∈ g.entries, e.Proper)
    {event : Event} (hevent : event.Leveled) : ∀ e ∈ (g.step lines event).entries, e.Proper := by
  cases event with
  | heading level first stop pieces =>
    exact List.forall_mem_cons.2 ⟨⟨hevent, trim_trim isBlank _⟩, h⟩
  | listEnd | headStart | headEnd | tableEnd => exact h
  | text | fence | listStart | tableStart => exact proper_change h _
  | item =>
    simp only [step]
    split
    · exact h
    · exact proper_change h _

theorem proper_foldl (lines : List (List Char)) {events : List Event}
    (hevents : ∀ event ∈ events, event.Leveled) : ∀ {g : Gathering}, (∀ e ∈ g.entries, e.Proper) →
      ∀ e ∈ (events.foldl (step lines) g).entries, e.Proper := by
  induction events with
  | nil => intro g h; exact h
  | cons event events ih =>
    intro g h
    obtain ⟨hevent, hevents⟩ := List.forall_mem_cons.1 hevents
    exact ih hevents (proper_step lines h hevent)

end Gathering

theorem proper_flatSections (lines : List (List Char)) {entries : List Entry}
    (h : ∀ e ∈ entries, e.Proper) : ∀ s ∈ flatSections lines entries, s.heading.Proper := by
  induction entries with
  | nil => exact fun _ h => absurd h List.not_mem_nil
  | cons e es ih =>
    obtain ⟨he, hes⟩ := List.forall_mem_cons.1 h
    have hproper : (sectionOf lines e es).heading.Proper := by
      refine ⟨he.1, strip_eq_self_iff.2 ?_⟩
      change trim isBlank (String.ofList e.text).toList = (String.ofList e.text).toList
      rw [String.toList_ofList]
      exact he.2
    exact List.forall_mem_cons.2 ⟨hproper, ih hes⟩

/-- The sections of a document are nested from a row of sections with proper headings. -/
theorem sections_eq_nest {text path : String} {d : Document}
    (h : parseDocument text path = .ok d) :
    ∃ flat, d.sections = nest flat ∧ ∀ s ∈ flat, s.heading.Proper := by
  obtain ⟨body, hbody⟩ := sections_of_parseDocument h
  refine ⟨_, hbody, proper_flatSections _ fun e he => ?_⟩
  exact Gathering.proper_foldl (cutOn '\n' body) (leveled_documentEvents body)
    (fun _ h => absurd h List.not_mem_nil) e (List.mem_reverse.1 he)

/-- **The headings of a document that was read have a level and a stripped text.** -/
theorem proper_of_parseDocument {text path : String} {d : Document}
    (h : parseDocument text path = .ok d) : ∀ s ∈ d.allSections, s.heading.Proper := by
  obtain ⟨flat, hsections, hflat⟩ := sections_eq_nest h
  intro s hs
  have hmem : s.heading ∈ flat.map (·.heading) := by
    rw [← map_nest (fun _ => rfl), ← hsections]
    exact List.mem_map_of_mem hs
  obtain ⟨t, ht, he⟩ := List.mem_map.1 hmem
  exact he ▸ hflat t ht

/-! ## Sections that nest alike -/

/-- The level and the text of a heading. -/
def Heading.key (h : Heading) : Nat × String := (h.level, h.text)

/-- **Sections that nest alike**: as many of them, with headings of the same levels and texts, and
so on inside of them. -/
inductive Alike : List Section → List Section → Prop
  | nil : Alike [] []
  | cons {s t : Section} {ss ts : List Section} (heading : s.heading.key = t.heading.key)
      (below : Alike s.children t.children) (rest : Alike ss ts) : Alike (s :: ss) (t :: ts)

namespace Alike

/-- Sections that nest alike have the same keys, in order. -/
theorem map_key_walkAll {ss ts : List Section} (h : Alike ss ts) :
    (walkAll ss).map (·.heading.key) = (walkAll ts).map (·.heading.key) := by
  induction h with
  | nil => rfl
  | cons heading _ _ ihbelow ihrest =>
    rw [walkAll_cons, walkAll_cons, List.map_cons, List.map_cons, List.map_append, List.map_append,
      heading, ihbelow, ihrest]

/-- A test of keys splits sections that nest alike in the same way. -/
theorem split {p : Nat × String → Bool} {ss ts : List Section} (h : Alike ss ts) :
    Alike (ss.takeWhile (p ·.heading.key)) (ts.takeWhile (p ·.heading.key)) ∧
      Alike (ss.dropWhile (p ·.heading.key)) (ts.dropWhile (p ·.heading.key)) := by
  induction h with
  | nil => exact ⟨.nil, .nil⟩
  | @cons s t ss ts heading below rest _ ih =>
    rw [List.takeWhile_cons, List.takeWhile_cons, List.dropWhile_cons, List.dropWhile_cons, heading]
    cases p t.heading.key with
    | true => exact ⟨.cons heading below ih.1, ih.2⟩
    | false => exact ⟨.nil, .cons heading below rest⟩

theorem adopt {s t : Section} (heading : s.heading.key = t.heading.key) {ss ts : List Section}
    (h : Alike ss ts) : Alike (adopt s ss) (adopt t ts) := by
  have hlevel : s.heading.level = t.heading.level := congrArg Prod.fst heading
  obtain ⟨htake, hdrop⟩ := h.split (p := fun key => t.heading.level < key.1)
  unfold Outline.adopt
  rw [hlevel]
  exact .cons heading htake hdrop

/-- **Nesting looks at levels only.** -/
theorem nest {ss : List Section} : ∀ {ts : List Section},
    ss.map (·.heading.key) = ts.map (·.heading.key) → Alike (nest ss) (nest ts) := by
  induction ss with
  | nil =>
    intro ts h
    rw [List.map_eq_nil_iff.1 h.symm]
    exact .nil
  | cons s ss ih =>
    intro ts h
    cases ts with
    | nil => cases h
    | cons t ts =>
      rw [List.map_cons, List.map_cons, List.cons.injEq] at h
      exact (ih h.2).adopt h.1

end Alike

/-- **The sections of two documents nest alike exactly if their headings have the same levels and
texts, in order.** -/
theorem alike_sections_iff {text path text' path' : String} {a b : Document}
    (ha : parseDocument text path = .ok a) (hb : parseDocument text' path' = .ok b) :
    Alike a.sections b.sections ↔ a.headings.map Heading.key = b.headings.map Heading.key := by
  obtain ⟨flat, hflat, -⟩ := sections_eq_nest ha
  obtain ⟨flat', hflat', -⟩ := sections_eq_nest hb
  rw [Document.headings, Document.headings, List.map_map, List.map_map]
  constructor
  · exact fun h => h.map_key_walkAll
  · intro h
    have hkeys : ∀ sections : List Section, (walkAll (nest sections)).map (·.heading.key) =
        sections.map (·.heading.key) := map_nest fun _ => rfl
    rw [Document.allSections, Document.allSections, hflat, hflat'] at h
    rw [hflat, hflat']
    exact .nest ((hkeys flat).symm.trans (h.trans (hkeys flat')))

end Outline

import Outline.Proofs.Document.Lines
import Outline.Proofs.Except

/-!
# Where links and images are recorded

The headings outside of quotes and lists cut the events of a text into passages, and each passage is
gathered in the section of its heading. **The links and images behind the headings are recorded one
by one, in order, each in the section of the last heading before it** (`recorded_parseDocument`).
Those in the headings themselves are not, so nothing is lost exactly if no heading has any.

* `Passage`: a heading and the events behind it;
* `linksAmong`, `imagesAmong`: the links and images in the texts of events;
* `Elements.Records`: elements with the links and images of events, and no others;
* `Gathered.step`: one more event goes on with the last passage, or begins one.
-/

namespace Outline

open Markdown (Event Inline documentEvents)

/-! ## Events -/

/-- Whether an event is a heading outside of quotes and lists. -/
def Markdown.Event.isHeading : Event → Bool
  | .heading .. => true
  | _ => false

/-- The pieces of the text of an event, whether or not it is a heading. -/
def Markdown.Event.pieces : Event → List Inline
  | .heading _ _ _ pieces => pieces
  | .text _ _ pieces => pieces
  | _ => []

/-- The addresses of the links that begin among pieces. -/
def linkTargets (pieces : List Inline) : List String :=
  pieces.filterMap fun
    | .linkStart address _ => some (String.ofList address)
    | _ => none

/-- The addresses of the images among pieces, with the texts that stand for them. -/
def imageTargets (pieces : List Inline) : List (String × String) :=
  pieces.filterMap fun
    | .image address alt => some (String.ofList address, String.ofList alt)
    | _ => none

/-- The addresses of the links in the texts of events. -/
def linksAmong (events : List Event) : List String := events.flatMap fun e => linkTargets e.pieces

/-- The addresses of the images in the texts of events, with the texts that stand for them. -/
def imagesAmong (events : List Event) : List (String × String) :=
  events.flatMap fun e => imageTargets e.pieces

theorem linksAmong_append (events events' : List Event) :
    linksAmong (events ++ events') = linksAmong events ++ linksAmong events' := List.flatMap_append

theorem imagesAmong_append (events events' : List Event) :
    imagesAmong (events ++ events') = imagesAmong events ++ imagesAmong events' :=
  List.flatMap_append

/-- All images of a document, in order. -/
def Document.images (d : Document) : List Image :=
  d.preamble.elements.images ++ d.allSections.flatMap (·.body.elements.images)

/-! ## Passages -/

/-- A heading outside of quotes and lists, and the events behind it up to the next one. -/
structure Passage where
  level : Nat
  first : Nat
  stop : Nat
  title : List Inline
  behind : List Event

/-- The events of a passage. -/
def Passage.events (p : Passage) : List Event := .heading p.level p.first p.stop p.title :: p.behind

/-- **Elements with the links and images of events**, one by one and in order. -/
structure Elements.Records (e : Elements) (events : List Event) : Prop where
  links : e.links.map (·.url) = linksAmong events
  images : e.images.map (fun i => (i.url, i.alt)) = imagesAmong events

/-- An entry with the heading of a passage that records the events behind it. -/
structure Passage.GatheredAs (p : Passage) (e : Entry) : Prop where
  level : e.level = p.level
  first : e.first = p.first
  text : e.text = Markdown.plainText p.title
  records : e.elements.Records p.behind

/-- **A section with the heading of a passage that records the events behind it.** -/
structure Passage.RecordedAs (p : Passage) (h : Heading) (b : Body) : Prop where
  level : h.level = p.level
  text : h.text = String.ofList (Markdown.plainText p.title)
  line : h.line = p.first + 1
  records : b.elements.Records p.behind

theorem map_url_linksIn (lines : List (List Char)) (first stop : Nat) (pieces : List Inline) :
    (linksIn lines first stop pieces).map (·.url) = linkTargets pieces := by
  induction pieces with
  | nil => rfl
  | cons piece pieces ih =>
    cases piece with
    | linkStart address bare =>
      unfold linksIn
      cases bare <;> exact congrArg (String.ofList address :: ·) ih
    | _ => exact ih

theorem map_imagesIn (lines : List (List Char)) (first stop : Nat) (pieces : List Inline) :
    (imagesIn lines first stop pieces).map (fun i => (i.url, i.alt)) = imageTargets pieces := by
  induction pieces with
  | nil => rfl
  | cons piece pieces ih =>
    cases piece with
    | image address alt => exact congrArg ((String.ofList address, String.ofList alt) :: ·) ih
    | _ => exact ih

namespace Elements.Records

theorem nil : Elements.Records {} [] := ⟨rfl, rfl⟩

variable {e e' : Elements} {events : List Event}

/-- An event without a text adds nothing. -/
theorem silent (h : e.Records events) {event : Event} (hevent : event.pieces = [])
    (hlinks : e'.links = e.links) (himages : e'.images = e.images) :
    e'.Records (events ++ [event]) := by
  have hnone : linksAmong [event] = [] ∧ imagesAmong [event] = [] := by
    simp only [linksAmong, imagesAmong, List.flatMap_singleton, hevent]
    exact ⟨rfl, rfl⟩
  refine ⟨?_, ?_⟩
  · rw [hlinks, h.links, linksAmong_append, hnone.1, List.append_nil]
  · rw [himages, h.images, imagesAmong_append, hnone.2, List.append_nil]

/-- A text adds the links and images in it. -/
theorem text (h : e.Records events) (lines : List (List Char)) (first stop : Nat)
    (pieces : List Inline) (hlinks : e'.links = e.links ++ linksIn lines first stop pieces)
    (himages : e'.images = e.images ++ imagesIn lines first stop pieces) :
    e'.Records (events ++ [.text first stop pieces]) := by
  refine ⟨?_, ?_⟩
  · rw [hlinks, List.map_append, h.links, map_url_linksIn, linksAmong_append]
    exact congrArg _ (List.flatMap_singleton _ _).symm
  · rw [himages, List.map_append, h.images, map_imagesIn, imagesAmong_append]
    exact congrArg _ (List.flatMap_singleton _ _).symm

end Elements.Records

/-! ## Gathering -/

/-- **What is gathered from events**: those before the first heading in the preamble, and each
passage in an entry, the last one first. -/
structure Gathered (events front : List Event) (latest : List Passage) (g : Gathering) : Prop where
  split : events = front ++ latest.reverse.flatMap Passage.events
  plain : ∀ e ∈ front ++ latest.reverse.flatMap (·.behind), e.isHeading = false
  preamble : g.preamble.Records front
  entries : List.Forall₂ Passage.GatheredAs latest g.entries

/-- An event that is no heading changes the elements that are being gathered, and records what is in
its text among them. -/
theorem Gathering.exists_change (lines : List (List Char)) (g : Gathering) {event : Event}
    (hevent : event.isHeading = false) : ∃ f : Elements → Elements,
      (g.step lines event).preamble = (g.change f).preamble ∧
        (g.step lines event).entries = (g.change f).entries ∧
        ∀ e events, e.Records events → (f e).Records (events ++ [event]) := by
  have hidle : (g.change id).preamble = g.preamble ∧ (g.change id).entries = g.entries := by
    unfold Gathering.change
    split
    · exact ⟨rfl, rfl⟩
    · rename_i hcons
      exact ⟨rfl, hcons.symm⟩
  cases event with
  | heading => cases hevent
  | listEnd | headStart | headEnd | tableEnd =>
    exact ⟨id, hidle.1.symm, hidle.2.symm, fun _ _ h => h.silent rfl rfl rfl⟩
  | fence | listStart | tableStart => exact ⟨_, rfl, rfl, fun _ _ h => h.silent rfl rfl rfl⟩
  | item =>
    simp only [Gathering.step]
    split
    · exact ⟨id, hidle.1.symm, hidle.2.symm, fun _ _ h => h.silent rfl rfl rfl⟩
    · exact ⟨_, rfl, rfl, fun _ _ h => h.silent rfl rfl rfl⟩
  | text first stop pieces =>
    exact ⟨_, rfl, rfl, fun _ _ h => h.text lines first stop pieces rfl rfl⟩

namespace Gathered

variable (lines : List (List Char)) {events front : List Event} {latest : List Passage}
  {g : Gathering}

/-- A heading begins a passage. -/
theorem heading (h : Gathered events front latest g) (level first stop : Nat)
    (title : List Inline) : Gathered (events ++ [.heading level first stop title]) front
      (⟨level, first, stop, title, []⟩ :: latest)
      (g.step lines (.heading level first stop title)) where
  split := by
    rw [h.split, List.reverse_cons, List.flatMap_append, List.flatMap_singleton, List.append_assoc]
    rfl
  plain := by
    rw [List.reverse_cons, List.flatMap_append, List.flatMap_singleton, List.append_nil]
    exact h.plain
  preamble := h.preamble
  entries := .cons ⟨rfl, rfl, rfl, .nil⟩ h.entries

/-- **One more event goes on with the last passage, or begins one.** -/
theorem step (h : Gathered events front latest g) (event : Event) : ∃ front' latest',
    Gathered (events ++ [event]) front' latest' (g.step lines event) := by
  cases hevent : event.isHeading with
  | true =>
    cases event with
    | heading level first stop title => exact ⟨_, _, h.heading lines level first stop title⟩
    | _ => cases hevent
  | false =>
    obtain ⟨f, hpreamble, hentries, hrecords⟩ := g.exists_change lines hevent
    obtain ⟨hsplit, hplain, hfront, hlatest⟩ := h
    rw [List.forall_mem_append] at hplain
    unfold Gathering.change at hpreamble hentries
    generalize g.entries = gathered at hlatest hpreamble hentries
    cases hlatest with
    | nil =>
      refine ⟨front ++ [event], [], ?_, ?_, ?_, ?_⟩
      · rw [hsplit]
        exact (List.append_assoc front [] [event]).trans (List.append_nil _).symm
      · exact List.forall_mem_append.2 ⟨List.forall_mem_append.2 ⟨hplain.1,
          List.forall_mem_singleton.2 hevent⟩, hplain.2⟩
      · rw [hpreamble]
        exact hrecords _ _ hfront
      · rw [hentries]
        exact .nil
    | @cons p e ps es he hes =>
      refine ⟨front, { p with behind := p.behind ++ [event] } :: ps, ?_, ?_, ?_, ?_⟩
      · rw [hsplit, List.reverse_cons, List.reverse_cons, List.flatMap_append,
          List.flatMap_append, List.flatMap_singleton, List.flatMap_singleton, List.append_assoc,
          List.append_assoc]
        rfl
      · rw [List.reverse_cons, List.flatMap_append, List.flatMap_singleton,
          List.forall_mem_append] at hplain ⊢
        rw [List.forall_mem_append, List.forall_mem_append]
        exact ⟨hplain.1, hplain.2.1, hplain.2.2, List.forall_mem_singleton.2 hevent⟩
      · rw [hpreamble]
        exact hfront
      · rw [hentries]
        exact .cons ⟨he.level, he.first, he.text, hrecords _ _ he.records⟩ hes

/-- What is gathered from events in a row. -/
theorem foldl (more : List Event) : ∀ {events front : List Event} {latest : List Passage}
    {g : Gathering}, Gathered events front latest g → ∃ front' latest',
      Gathered (events ++ more) front' latest' (more.foldl (Gathering.step lines) g) := by
  induction more with
  | nil =>
    intro events front latest g h
    exact ⟨front, latest, by rwa [List.append_nil]⟩
  | cons event more ih =>
    intro events front latest g h
    obtain ⟨front', latest', h'⟩ := h.step lines event
    rw [List.append_cons]
    exact ih h'

end Gathered

/-! ## Sections -/

theorem forall₂_flatSections (lines : List (List Char)) {passages : List Passage}
    {entries : List Entry} (h : List.Forall₂ Passage.GatheredAs passages entries) :
    List.Forall₂ (fun p s => p.RecordedAs s.heading s.body) passages
      (flatSections lines entries) := by
  induction h with
  | nil => exact .nil
  | cons he _ ih =>
    refine .cons ⟨he.level, congrArg String.ofList he.text, congrArg (· + 1) he.first, ?_⟩ ih
    exact he.records

/-- Nesting keeps the headings and the bodies of sections. -/
theorem forall₂_nest {α : Type} {R : α → Heading → Body → Prop} {as : List α}
    {sections : List Section} (h : List.Forall₂ (fun a s => R a s.heading s.body) as sections) :
    List.Forall₂ (fun a s => R a s.heading s.body) as (walkAll (nest sections)) := by
  have hkept : (walkAll (nest sections)).map (fun s => (s.heading, s.body)) =
      sections.map fun s => (s.heading, s.body) := map_nest (fun _ => rfl) sections
  have hmap : List.Forall₂ (fun a hb => R a hb.1 hb.2) as
      (sections.map fun s => (s.heading, s.body)) := List.forall₂_map_right_iff.2 h
  rw [← hkept] at hmap
  exact List.forall₂_map_right_iff.1 hmap

/-! ## Documents -/

/-- **Where the links and images in the texts of events are recorded.** The headings cut the events
into passages. The preamble records what stands before the first heading, and each section what
stands behind its own, so that in all those outside of headings are recorded, in their order. All
links and images are recorded exactly if there are none in headings. -/
structure TargetsRecorded (events : List Event) (d : Document) (front : List Event)
    (passages : List Passage) : Prop where
  split : events = front ++ passages.flatMap Passage.events
  plain : ∀ e ∈ front ++ passages.flatMap (·.behind), e.isHeading = false
  preamble : d.preamble.elements.Records front
  sections : List.Forall₂ (fun p s => p.RecordedAs s.heading s.body) passages d.allSections
  links : d.links.map (·.url) = linksAmong (front ++ passages.flatMap (·.behind))
  images : d.images.map (fun i => (i.url, i.alt)) =
    imagesAmong (front ++ passages.flatMap (·.behind))
  whole : (d.links.map (·.url) = linksAmong events ∧
      d.images.map (fun i => (i.url, i.alt)) = imagesAmong events) ↔
    ∀ p ∈ passages, linkTargets p.title = [] ∧ imageTargets p.title = []

/-- The members that sections record in a row are those of the passages in a row. -/
theorem flatMap_of_recordedAs {α β : Type} {list : Elements → List α} {key : α → β}
    {among : List Event → List β} (happend : ∀ es es', among (es ++ es') = among es ++ among es')
    (hnil : among [] = []) (hrecords : ∀ e events, e.Records events →
      (list e).map key = among events) {passages : List Passage} {sections : List Section}
    (h : List.Forall₂ (fun p s => p.RecordedAs s.heading s.body) passages sections) :
    (sections.flatMap fun s => list s.body.elements).map key =
      among (passages.flatMap (·.behind)) := by
  induction h with
  | nil => exact hnil.symm
  | cons hs _ ih =>
    rw [List.flatMap_cons, List.map_append, ih, hrecords _ _ hs.records, List.flatMap_cons, happend]

/-- All that passages have is found behind their headings exactly if the headings have nothing. -/
theorem flatMap_events_eq_iff {α : Type} (f : Event → List α) (passages : List Passage) :
    (passages.flatMap (·.behind)).flatMap f = (passages.flatMap Passage.events).flatMap f ↔
      ∀ p ∈ passages, f (.heading p.level p.first p.stop p.title) = [] := by
  constructor
  · -- by lengths: what the headings add could not be made up for elsewhere
    intro h
    have hle : ∀ ps : List Passage, ((ps.flatMap (·.behind)).flatMap f).length ≤
        ((ps.flatMap Passage.events).flatMap f).length := by
      intro ps
      induction ps with
      | nil => exact Nat.le_refl _
      | cons p ps ih =>
        simp only [List.flatMap_cons, List.flatMap_append, List.length_append, Passage.events]
        omega
    have hlength := (congrArg List.length h).ge
    clear h
    induction passages with
    | nil => exact fun _ hp => absurd hp List.not_mem_nil
    | cons p ps ih =>
      have hmore := hle ps
      rw [List.flatMap_cons, List.flatMap_cons, List.flatMap_append, List.flatMap_append,
        List.length_append, List.length_append, Passage.events, List.flatMap_cons,
        List.length_append] at hlength
      exact List.forall_mem_cons.2 ⟨List.length_eq_zero_iff.1 (by omega), ih (by omega)⟩
  · intro h
    induction passages with
    | nil => rfl
    | cons p ps ih =>
      obtain ⟨hp, hps⟩ := List.forall_mem_cons.1 h
      rw [List.flatMap_cons, List.flatMap_cons, List.flatMap_append, List.flatMap_append, ih hps,
        Passage.events, List.flatMap_cons, hp, List.nil_append]

/-- What is recorded passage by passage is recorded in the document, and what is lost are the links
and images in headings. -/
theorem targetsRecorded_of_passages {events front : List Event} {d : Document}
    {passages : List Passage} (hsplit : events = front ++ passages.flatMap Passage.events)
    (hplain : ∀ e ∈ front ++ passages.flatMap (·.behind), e.isHeading = false)
    (hfront : d.preamble.elements.Records front)
    (hsections : List.Forall₂ (fun p s => p.RecordedAs s.heading s.body) passages d.allSections) :
    TargetsRecorded events d front passages := by
  have hlinks : d.links.map (·.url) = linksAmong (front ++ passages.flatMap (·.behind)) := by
    rw [Document.links, List.map_append, hfront.links, linksAmong_append,
      flatMap_of_recordedAs linksAmong_append rfl (fun _ _ h => h.links) hsections]
  have himages : d.images.map (fun i => (i.url, i.alt)) =
      imagesAmong (front ++ passages.flatMap (·.behind)) := by
    rw [Document.images, List.map_append, hfront.images, imagesAmong_append,
      flatMap_of_recordedAs imagesAmong_append rfl (fun _ _ h => h.images) hsections]
  refine ⟨hsplit, hplain, hfront, hsections, hlinks, himages, ?_⟩
  rw [hlinks, himages, hsplit, linksAmong_append, linksAmong_append, imagesAmong_append,
    imagesAmong_append, List.append_right_inj, List.append_right_inj, linksAmong, linksAmong,
    imagesAmong, imagesAmong, flatMap_events_eq_iff, flatMap_events_eq_iff, ← forall₂_and]
  rfl

/-- A document with the sections of events records the events behind each heading in its section. -/
theorem exists_targetsRecorded {lines : List (List Char)} {events : List Event} {d : Document}
    (h : sectionsOf lines events = (d.preamble, d.sections)) :
    ∃ front passages, TargetsRecorded events d front passages := by
  have hstart : Gathered [] [] [] {} := ⟨rfl, List.forall_mem_nil _, .nil, .nil⟩
  obtain ⟨front, latest, hgathered⟩ := hstart.foldl lines events
  obtain ⟨hpreamble, hnested⟩ := Prod.mk.inj h
  have hsections := forall₂_nest
    (forall₂_flatSections lines (List.forall₂_reverse_iff.2 hgathered.entries))
  rw [hnested] at hsections
  refine ⟨front, latest.reverse,
    targetsRecorded_of_passages hgathered.split hgathered.plain ?_ hsections⟩
  rw [← hpreamble]
  exact hgathered.preamble

/-- **No link and no image outside of headings is lost**: each is recorded in the section of the
last heading before it. -/
theorem recorded_parseDocument {text path : String} {d : Document}
    (h : parseDocument text path = .ok d) : ∃ frontMatter body front passages,
      splitFrontMatter text = .ok (frontMatter, body) ∧
        TargetsRecorded (documentEvents body.toList) d front passages := by
  obtain ⟨⟨frontMatter, body⟩, hsplit, h⟩ := bind_eq_ok.1 h
  have hsections : sectionsOf (cutOn '\n' body.toList) (documentEvents body.toList) =
      (d.preamble, d.sections) := by
    dsimp only at h
    generalize sectionsOf (cutOn '\n' body.toList) (documentEvents body.toList) = outcome at h ⊢
    cases h
    rfl
  obtain ⟨front, passages, hrecorded⟩ := exists_targetsRecorded hsections
  exact ⟨frontMatter, body, front, passages, hsplit, hrecorded⟩

/-! ### Headings with links -/

/-- A heading with a link and an image, and links behind it: in a heading in a quote, around an
image, and in a table. -/
def linkedText : String :=
  "[a](b)\n\n# [c](d) ![e](f)\n\n> # [g](h)\n\n[![i](j)](k)\n\n| [l](m) |\n|---|\n"

theorem urls_linkedText :
    (parseDocument linkedText "").toOption.map (fun d => d.links.map (·.url)) =
      some ["b", "h", "k", "m"] := by
  decide +kernel

theorem recorded_linkedText : ∃ d, parseDocument linkedText "" = .ok d ∧
    ∃ frontMatter body front passages, splitFrontMatter linkedText = .ok (frontMatter, body) ∧
      TargetsRecorded (documentEvents body.toList) d front passages := by
  cases h : parseDocument linkedText "" with
  | ok d => exact ⟨d, rfl, recorded_parseDocument h⟩
  | error fault =>
    have hread := urls_linkedText
    rw [h] at hread
    cases hread

/-- The link in a heading is lost. -/
theorem linkInHeading_lost :
    (parseDocument "# [a](b)\n" "").toOption.map (fun d => d.links.map (·.url)) = some [] ∧
      linksAmong (documentEvents "# [a](b)\n".toList) = ["b"] := by
  decide +kernel

end Outline

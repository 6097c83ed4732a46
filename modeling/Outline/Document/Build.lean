import Outline.Document.Basic
import Outline.Document.Column
import Outline.Document.Event
import Outline.Document.Slug

/-!
# Building documents

The events of a text are gathered heading by heading: each heading begins an entry, and the elements
up to the next one belong to it. The entries are nested by their levels.

* `Gathering`, `Gathering.step`: entries and elements, event by event;
* `nest`: entries as a tree of sections;
* `sectionsOf`: the preamble and the sections of a text with given events;
* `parseDocument`: the document of a text.
-/

namespace Outline

open Markdown (Event Inline)

/-! ## Elements -/

/-- The text of a link up to its end; breaks of lines do not count. -/
def linkText : List Inline → List Char
  | [] => []
  | .linkEnd :: _ => []
  | .text cs :: is => cs ++ linkText is
  | .code cs :: is => cs ++ linkText is
  | _ :: is => linkText is

/-- The links among the pieces of a text, which stands in the lines from `first` up to `stop`. -/
def linksIn (lines : List (List Char)) (first stop : Nat) : List Inline → List Link
  | [] => []
  | .linkStart address bare :: is =>
    let (line, column) :=
      if bare then locate lines address ['<'] first stop
      else locate lines (']' :: '(' :: address) ['['] first stop
    ⟨String.ofList address, String.ofList (linkText is), line, column⟩ ::
      linksIn lines first stop is
  | _ :: is => linksIn lines first stop is

/-- The images among the pieces of a text, which stands in the lines from `first` up to `stop`. -/
def imagesIn (lines : List (List Char)) (first stop : Nat) : List Inline → List Image
  | [] => []
  | .image address alt :: is =>
    let (line, column) := locate lines (']' :: '(' :: address) ['!', '['] first stop
    ⟨String.ofList address, String.ofList alt, line, column⟩ :: imagesIn lines first stop is
  | _ :: is => imagesIn lines first stop is

/-- The first word of what stands behind a fence. -/
def languageOf (info : List Char) : List Char := (words info).headD []

/-- A list with a function applied to its last member. -/
def modifyLast {α : Type} (f : α → α) : List α → List α
  | [] => []
  | [a] => [f a]
  | a :: b :: as => a :: modifyLast f (b :: as)

/-- A list with a function applied to the member at a place. -/
def modifyAt {α : Type} (f : α → α) : (place : Nat) → List α → List α
  | _, [] => []
  | 0, a :: as => f a :: as
  | n + 1, a :: as => a :: modifyAt f n as

theorem modifyLast_concat {α : Type} (f : α → α) (l : List α) (a : α) :
    modifyLast f (l ++ [a]) = l ++ [f a] := by
  induction l with
  | nil => rfl
  | cons b l ih =>
    cases l with
    | nil => rfl
    | cons c l => exact congrArg (b :: ·) ih

theorem modifyAt_length {α : Type} (f : α → α) (l : List α) (a : α) :
    modifyAt f l.length (l ++ [a]) = l ++ [f a] := by
  induction l with
  | nil => rfl
  | cons b l ih => exact congrArg (b :: ·) ih

/-! ## Entries -/

/-- A heading with its lines up to `stop`, counted from 0, and the elements behind it. -/
structure Entry where
  level : Nat
  first : Nat
  stop : Nat
  text : List Char
  elements : Elements

/-- What has been gathered: the elements before the first heading, the entries so far, the last one
first, the places of the open lists among those of the last entry, the innermost first, and whether
a table and its head are open. -/
structure Gathering where
  preamble : Elements := {}
  entries : List Entry := []
  openLists : List Nat := []
  inTable : Bool := false
  inHead : Bool := false

namespace Gathering

/-- The elements that are being gathered. -/
def current (g : Gathering) : Elements :=
  match g.entries with
  | [] => g.preamble
  | e :: _ => e.elements

/-- Changes the elements that are being gathered. -/
def change (g : Gathering) (f : Elements → Elements) : Gathering :=
  match g.entries with
  | [] => { g with preamble := f g.preamble }
  | e :: es => { g with entries := { e with elements := f e.elements } :: es }

/-- Goes on by one event. -/
def step (lines : List (List Char)) (g : Gathering) (event : Event) : Gathering :=
  let at_ (first : Nat) : Nat × Nat := (first + 1, blockColumn (lineAt lines (first + 1)))
  match event with
  | .heading level first stop pieces =>
    { g with
      entries := ⟨level, first, stop, Markdown.plainText pieces, {}⟩ :: g.entries
      openLists := [] }
  | .fence first info =>
    let (line, column) := at_ first
    g.change fun e => { e with
      codeBlocks := e.codeBlocks ++ [⟨String.ofList (languageOf info), line, column⟩] }
  | .listStart ordered first =>
    let (line, column) := at_ first
    { g.change fun e => { e with lists := e.lists ++ [⟨ordered, 0, line, column⟩] } with
      openLists := g.current.lists.length :: g.openLists }
  | .listEnd => { g with openLists := g.openLists.drop 1 }
  | .item =>
    match g.openLists with
    | [] => g
    | place :: _ =>
      g.change fun e => { e with
        lists := modifyAt (fun l => { l with itemCount := l.itemCount + 1 }) place e.lists }
  | .tableStart first =>
    let (line, column) := at_ first
    { g.change fun e => { e with tables := e.tables ++ [⟨[], line, column⟩] } with inTable := true }
  | .headStart => { g with inHead := true }
  | .headEnd => { g with inHead := false }
  | .tableEnd => { g with inTable := false }
  | .text first stop pieces =>
    let header := String.ofList (Markdown.plainText pieces)
    g.change fun e => { e with
      tables :=
        if g.inHead && g.inTable then
          modifyLast (fun t => { t with headers := t.headers ++ [header] }) e.tables
        else e.tables
      links := e.links ++ linksIn lines first stop pieces
      images := e.images ++ imagesIn lines first stop pieces }

end Gathering

/-- The elements before the first heading, and the entries of events. -/
def gather (lines : List (List Char)) (events : List Event) : Elements × List Entry :=
  let g := events.foldl (Gathering.step lines) {}
  (g.preamble, g.entries.reverse)

/-! ## Sections -/

/-- The lines from the place `first` up to the place `stop`, without empty lines at their ends. -/
def region (lines : List (List Char)) (first stop : Nat) : String :=
  String.ofList (trim (· == '\n') (joinLines ((lines.take stop).drop first)))

/-- The last line before the next entry of a level that is not deeper. -/
def endLineOf (total level : Nat) (later : List Entry) : Nat :=
  match later.find? (·.level ≤ level) with
  | some e => e.first
  | none => total

/-- The section of an entry, without subsections. -/
def sectionOf (lines : List (List Char)) (e : Entry) (later : List Entry) : Section :=
  let line := e.first + 1
  let next := match later with
    | [] => lines.length
    | n :: _ => n.first
  { heading :=
      { level := e.level
        text := String.ofList e.text
        line := line
        column := headingColumn (lineAt lines line)
        slug := slug (String.ofList e.text) }
    body :=
      { startLine := line
        endLine := max (endLineOf lines.length e.level later) line
        text := region lines e.stop next
        elements := e.elements }
    children := [] }

/-- The sections of entries, without subsections. -/
def flatSections (lines : List (List Char)) : List Entry → List Section
  | [] => []
  | e :: es => sectionOf lines e es :: flatSections lines es

/-- Puts a section before others: those at their front that are deeper become its subsections. -/
def adopt (s : Section) (rest : List Section) : List Section :=
  let deeper (t : Section) : Bool := s.heading.level < t.heading.level
  ⟨s.heading, s.body, rest.takeWhile deeper⟩ :: rest.dropWhile deeper

/-- Sections without subsections as a tree. -/
def nest (sections : List Section) : List Section := sections.foldr adopt []

/-- The preamble and the sections of a text with given lines and events. -/
def sectionsOf (lines : List (List Char)) (events : List Event) : Body × List Section :=
  let (elements, entries) := gather lines events
  let first := match entries with
    | [] => lines.length
    | e :: _ => e.first
  (⟨1, lines.length, region lines 0 first, elements⟩, nest (flatSections lines entries))

/-- The document of a text. -/
def parseDocument (text path : String) : Except Fault Document := do
  let (frontMatter, body) ← splitFrontMatter text
  let cs := body.toList
  let (preamble, sections) := sectionsOf (cutOn '\n' cs) (Markdown.documentEvents cs)
  return ⟨path, text, frontMatter, preamble, sections⟩

end Outline

import Outline.Markdown.Definition

/-!
# Reading blocks

The blocks of a document are read from its lines. Quotes and items of lists are containers: the lines
inside them are read in the same way, at most twenty containers deep.

* `readBlocks`: the blocks of a container;
* `blocksOf`: the blocks of a document.
-/

namespace Outline.Markdown

/-- Lines inside a container are read so: their blocks, and the number of lines read. -/
abbrev Reader := Inside → List Line → List Block × Nat

/-- Lines joined into the text of a paragraph or a heading. -/
def joinedText (k : Inside) (ls : List Line) : List Char :=
  trim isBlank (['\n'].intercalate (ls.map (·.inside k.indent)))

/-! ## Blocks of one kind -/

/-- The number of lines of indented code behind its first line. -/
def codeLength (k : Inside) : List Line → Nat
  | [] => 0
  | l :: ls =>
    if l.isBlank then
      match codeLength k ls with
      | 0 => 0
      | n + 1 => n + 2
    else if l.isCode k.indent then codeLength k ls + 1
    else 0

/-- The number of lines of a fenced block behind its first line. -/
def fenceLength (k : Inside) (f : Fence) : List Line → Nat
  | [] => 0
  | l :: ls =>
    if !l.isBlank && l.indent < k.indent then 0
    else if !l.isCode k.indent && f.closedBy l.body then 1
    else fenceLength k f ls + 1

/-- The number of lines of a block of HTML behind its first line. -/
def htmlLength (k : Inside) (start : HtmlStart) : List Line → Nat
  | [] => 0
  | l :: ls =>
    if l.indent < k.indent then 0
    else if start.endsIn l.body then (if l.isBlank then 0 else 1)
    else htmlLength k start ls + 1

/-- The level of a heading that is underlined, and the number of lines of its text behind the first
one. -/
def underlined? (k : Inside) : List Line → Option (Nat × Nat)
  | [] => none
  | l :: ls =>
    if l.isBlank then none
    else
      let level := if l.isCode k.indent || l.indent < k.indent then none else underline? l.body
      match level with
      | some level => some (level, 0)
      | none =>
        if !l.isCode k.indent && 0 ≤ l.indent && interrupts k true l ls then none
        else (underlined? k ls).map fun r => (r.1, r.2 + 1)

/-- The lines of a quote behind its first one, as they are seen inside. -/
def quoteLines (k : Inside) : (afterBlank : Bool) → List Line → List Line
  | _, [] => []
  | afterBlank, l :: ls =>
    if l.isBlank then []
    else
      match if l.indent < k.indent then none else l.quoted? with
      | some q => q :: quoteLines k q.isBlank ls
      | none =>
        if afterBlank || interruptsQuote k l then []
        else { l with indent := -1 } :: quoteLines k false ls

/-- The first line of an item as it is seen inside, and the indentation of the item. -/
def itemLine (m : Marker) (l : Line) : Line × Nat :=
  let start := l.indent + m.width
  let after := l.body.drop m.width
  let blanks := after.takeWhile isIndent
  let width := indentWidth (start + l.base) blanks
  let pad := if after.length == blanks.length || 4 < width then 1 else width
  ({ l with shift := l.shift + m.width + blanks.length, indent := start + width },
    (start + pad).toNat)

/-- The items of a list whose first item has the given sign, and the number of lines read. -/
def listItems (nested : Reader) (k : Inside) :
    (fuel : Nat) → Marker → List Line → List (List Block) × Nat
  | 0, _, ls => ([], ls.length)
  | _, _, [] => ([], 0)
  | fuel + 1, m, l :: ls =>
    let (first, indent) := itemLine m l
    let (blocks, read) :=
      if first.isBlank && (ls.head?.map Line.isBlank).getD true then ([], 2)
      else nested ⟨indent, some k.indent, k.level + 2⟩ (first :: ls)
    let read := max 1 (min read (ls.length + 1))
    let rest := ls.drop (read - 1)
    match rest with
    | [] => ([blocks], read)
    | h :: _ =>
      if h.indent < k.indent || h.isCode k.indent || interruptsList k h then ([blocks], read)
      else
        match marker? h.body with
        | none => ([blocks], read)
        | some m' =>
          if m.continues m' then
            let (items, more) := listItems nested k fuel m' rest
            (blocks :: items, read + more)
          else ([blocks], read)

/-! ## Blocks of all kinds -/

/-- A heading or a paragraph. -/
def textBlock (k : Inside) (l : Line) (rest : List Line) : List Block × Nat :=
  match atx? l.body with
  | some (level, text) => ([.heading level l.number (l.number + 1) (l.number + 1) text], 1)
  | none =>
    match underlined? k rest with
    | some (level, more) =>
      let text := joinedText k (l :: rest.take more)
      ([.heading level l.number (l.number + more + 1) (l.number + more + 2) text], more + 2)
    | none =>
      let more := continuation k true rest
      ([.paragraph l.number (l.number + more.length + 1) (joinedText k (l :: more))],
        more.length + 1)

/-- A definition, a block of HTML, a heading or a paragraph. -/
def plainBlock (k : Inside) (l : Line) (rest : List Line) : List Block × Nat :=
  match definitionAt? k l rest with
  | some (label, address, read) => ([.definition label address], read)
  | none =>
    match htmlStart? l.body with
    | some start =>
      ([], 1 + if start.endsIn l.body then 0 else htmlLength k start rest)
    | none => textBlock k l rest

/-- The block that begins at a line, and the number of its lines. -/
def readBlock (nested : Reader) (k : Inside) (l : Line) (rest : List Line) : List Block × Nat :=
  match tableAt? k (l :: rest) with
  | some (header, rows) => ([.table l.number header rows], rows.length + 2)
  | none =>
    if l.isCode k.indent then ([], 1 + codeLength k rest)
    else
      match fence? l.body with
      | some f => ([.fence l.number f.info], 1 + fenceLength k f rest)
      | none =>
        match l.quoted? with
        | some q =>
          let (blocks, read) :=
            nested ⟨0, k.outer, k.level + 1⟩ (q :: quoteLines k q.isBlank rest)
          ([.quote blocks], read)
        | none =>
          if isRule l.body then ([], 1)
          else
            match itemAt? k false l with
            | some m =>
              let (items, read) := listItems nested k (rest.length + 2) m (l :: rest)
              ([.list m.number.isSome l.number items], read)
            | none => plainBlock k l rest

/-- The blocks of a container, and the number of lines read. A line to the left of the container ends
it. -/
def readBlocks (nested : Reader) (k : Inside) : (fuel : Nat) → List Line → List Block × Nat
  | 0, ls => ([], ls.length)
  | fuel + 1, ls =>
    let blanks := (ls.takeWhile Line.isBlank).length
    match ls.drop blanks with
    | [] => ([], ls.length)
    | l :: rest =>
      if l.indent < k.indent then ([], blanks)
      else if maxLevel ≤ k.level then ([], ls.length)
      else
        let (blocks, read) := readBlock nested k l rest
        let read := blanks + max 1 read
        let (more, readMore) := readBlocks nested k fuel (ls.drop read)
        (blocks ++ more, read + readMore)

/-- Reads containers in each other, no more than `depth`. -/
def readNested : (depth : Nat) → Reader
  | 0 => fun _ ls => ([], ls.length)
  | depth + 1 => fun k ls => readBlocks (readNested depth) k (ls.length + 1) ls

/-- The blocks of a document. -/
def blocksOf (text : List Char) : List Block :=
  (readNested (maxLevel + 1) ⟨0, none, 0⟩ (documentLines text)).1

end Outline.Markdown

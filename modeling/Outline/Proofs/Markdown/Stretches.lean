import Outline.Proofs.Markdown.Brackets
import Outline.Proofs.Markdown.Spots

/-!
# The texts of blocks and their brackets

Each text of a block takes its brackets from the lines of the block, so that the brackets of a
document can be counted through its texts: **the texts stand in a row, each with its own brackets**
(`within_textsOf`). Hence so do the links in them: each has a number, that of its bracket among all
those of the document, and **no two of them have the same** (`inRow_linkMarks`).

* `Stretch`, `textsOf`: the texts of blocks, with the lines they stand in;
* `LinesRead`: what has been read from lines, with the brackets of these lines;
* `LinkMark`, `linkMarks`: the links of a document, with the numbers of their brackets.
-/

namespace Outline

namespace Markdown

variable {pieces : List (List Char)} {k : Inside} {l : Line} {ls rest : List Line} {n : Nat}

/-! ## Texts of blocks -/

/-- A text of a document: the lines it stands in, from `first` up to `stop`, the number of brackets
in its first line that belong to texts before it, and its characters. -/
structure Stretch where
  first : Nat
  stop : Nat
  skipped : Nat
  chars : List Char

/-- The number of brackets before a text. -/
def Stretch.start (pieces : List (List Char)) (t : Stretch) : Nat :=
  bracketsBefore pieces t.first + t.skipped

/-- The number of brackets up to the end of a text. -/
def Stretch.finish (pieces : List (List Char)) (t : Stretch) : Nat :=
  t.start pieces + t.chars.count '['

/-- The texts of the cells of a row. -/
def cellTexts (line : Nat) : (skipped : Nat) → List (List Char) → List Stretch
  | _, [] => []
  | skipped, cell :: cells =>
    ⟨line, line + 1, skipped, cell⟩ :: cellTexts line (skipped + cell.count '[') cells

mutual

/-- The texts of a block; `top` tells whether it is outside of quotes and lists. The texts of
headings there are left out. -/
def blockTexts (top : Bool) : Block → List Stretch
  | .heading _ first textStop _ text => if top then [] else [⟨first, textStop, 0, text⟩]
  | .paragraph first stop text => [⟨first, stop, 0, text⟩]
  | .fence _ _ => []
  | .quote blocks => textsOf false blocks
  | .list _ _ items => itemTexts items
  | .table first header rows =>
    cellTexts first 0 header ++ rows.flatMap fun row => cellTexts row.1 0 row.2
  | .definition _ _ => []

/-- The texts of blocks. -/
def textsOf (top : Bool) : List Block → List Stretch
  | [] => []
  | b :: bs => blockTexts top b ++ textsOf top bs

/-- The texts of the items of a list. -/
def itemTexts : List (List Block) → List Stretch
  | [] => []
  | bs :: rest => textsOf false bs ++ itemTexts rest

end

/-- **Texts in a row, each with its own brackets**, which are some of those between two numbers. -/
abbrev Within (pieces : List (List Char)) : (start stop : Nat) → List Stretch → Prop :=
  InRow (Stretch.start pieces) (Stretch.finish pieces)

theorem textsOf_append (top : Bool) (bs bs' : List Block) :
    textsOf top (bs ++ bs') = textsOf top bs ++ textsOf top bs' := by
  induction bs with
  | nil => rfl
  | cons b bs ih => rw [List.cons_append, textsOf, textsOf, ih, List.append_assoc]

theorem textsOf_singleton (top : Bool) (b : Block) : textsOf top [b] = blockTexts top b :=
  List.append_nil _

theorem within_cellTexts (line : Nat) : ∀ (cells : List (List Char)) (skipped : Nat),
    Within pieces (bracketsBefore pieces line + skipped)
      (bracketsBefore pieces line + skipped + bracketsIn cells) (cellTexts line skipped cells)
  | [], _ => trivial
  | cell :: cells, skipped => by
    have hrest := within_cellTexts line cells (skipped + cell.count '[')
    rw [bracketsIn_cons, ← Nat.add_assoc]
    rw [← Nat.add_assoc] at hrest
    exact ⟨le_rfl, Nat.le_add_right _ _, Nat.le_add_right _ _, hrest⟩

/-- The cells of a row have some of the brackets of its line. -/
theorem Line.Bracketed.cellTexts (h : l.Bracketed pieces) (row : List (List Char))
    (hrow : bracketsIn row ≤ l.body.count '[') :
    Within pieces (bracketsBefore pieces l.number) (bracketsBefore pieces (l.number + 1))
      (cellTexts l.number 0 row) := by
  refine (within_cellTexts l.number row 0).widen (Nat.le_refl _) ?_
  rw [h.body]
  exact Nat.add_le_add_left hrow _

theorem length_tableRowsFrom_le (m : Nat) : ∀ (ls : List Line) (filled : Int),
    (tableRowsFrom k m filled ls).length ≤ ls.length
  | [], _ => le_rfl
  | l :: ls, filled => by
    unfold tableRowsFrom
    dsimp only
    split_ifs
    · exact Nat.zero_le _
    · exact Nat.zero_le _
    · exact Nat.succ_le_succ (length_tableRowsFrom_le m ls _)

theorem within_tableRowsFrom (m : Nat) : ∀ {ls : List Line} {n : Nat} (filled : Int),
    LinesFrom pieces n ls →
      Within pieces (bracketsBefore pieces n)
        (bracketsBefore pieces (n + (tableRowsFrom k m filled ls).length))
        ((tableRowsFrom k m filled ls).flatMap fun row => cellTexts row.1 0 row.2)
  | [], _, _, _ => trivial
  | l :: ls, n, filled, h => by
    obtain ⟨rfl, hl, hls⟩ := h
    unfold tableRowsFrom
    dsimp only
    split_ifs
    · trivial
    · trivial
    · rw [List.flatMap_cons, List.length_cons]
      have hcells := hl.cellTexts (fillCells m (cells l.body))
        ((bracketsIn_fillCells m _).trans (bracketsIn_cells l.body).le)
      have hrest := within_tableRowsFrom m (filled + (m - (cells l.body).length)) hls
      rw [Nat.add_right_comm, Nat.add_assoc] at hrest
      exact hcells.append hrest (bracketsBefore_mono pieces (Nat.le_succ _))
        (bracketsBefore_mono pieces (by omega))

/-- **What has been read from lines**: texts in a row, with the brackets of these lines. -/
def LinesRead (pieces : List (List Char)) (n : Nat) (ls : List Line) (read : Nat)
    (texts : List Stretch) : Prop :=
  Within pieces (bracketsBefore pieces n) (bracketsBefore pieces (n + min read ls.length)) texts

theorem LinesRead.intro {m read : Nat} {texts : List Stretch}
    (h : Within pieces (bracketsBefore pieces n) (bracketsBefore pieces (n + m)) texts)
    (hread : m ≤ read) (hlength : m ≤ ls.length) : LinesRead pieces n ls read texts :=
  h.widen le_rfl (bracketsBefore_mono pieces (by omega))

/-- What is read behind other lines stands behind what was read from them. -/
theorem LinesRead.append {ls' : List Line} {m read more : Nat} {texts texts' : List Stretch}
    (h : Within pieces (bracketsBefore pieces n) (bracketsBefore pieces (n + m)) texts)
    (h' : LinesRead pieces (n + m) ls' more texts') (hread : m ≤ read)
    (hlength : m + ls'.length ≤ ls.length) :
    LinesRead pieces n ls (read + more) (texts ++ texts') := by
  refine InRow.append h (h'.widen le_rfl (bracketsBefore_mono pieces ?_))
    (bracketsBefore_mono pieces ?_) (bracketsBefore_mono pieces ?_) <;> omega

/-- **A reader of containers whose texts have the brackets of the lines that it is given.** -/
def Reader.Bracketed (pieces : List (List Char)) (r : Reader) : Prop :=
  ∀ k n ls, LinesFrom pieces n ls → ∀ top,
    LinesRead pieces n ls (r k ls).2 (textsOf top (r k ls).1)

/-- Reading no text. -/
theorem LinesRead.none {read : Nat} : LinesRead pieces n ls read [] := trivial

/-- A text of lines from the first one on. -/
theorem LinesRead.text {stop m read : Nat} {chars : List Char}
    (h : bracketsBefore pieces n + chars.count '[' ≤ bracketsBefore pieces (n + m))
    (hread : m ≤ read) (hlength : m ≤ ls.length) :
    LinesRead pieces n ls read [⟨n, stop, 0, chars⟩] :=
  .intro ⟨le_rfl, Nat.le_add_right _ _, h, trivial⟩ hread hlength

theorem linesRead_textBlock (h : LinesFrom pieces n (l :: rest)) (top : Bool) :
    LinesRead pieces n (l :: rest) (textBlock k l rest).2 (textsOf top (textBlock k l rest).1) := by
  obtain ⟨rfl, hl, hrest⟩ := id h
  -- a heading has a text only inside of quotes and lists
  have hheading {textStop stop level read m : Nat} {text : List Char}
      (htext : bracketsBefore pieces l.number + text.count '[' ≤
        bracketsBefore pieces (l.number + m)) (hread : m ≤ read) (hlength : m ≤ rest.length + 1) :
      LinesRead pieces l.number (l :: rest) read
        (textsOf top [.heading level l.number textStop stop text]) := by
    rw [textsOf_singleton, blockTexts]
    split_ifs
    · exact .none
    · exact .text htext hread hlength
  unfold textBlock
  split
  · rename_i level text hatx
    refine hheading (m := 1) ?_ le_rfl (Nat.succ_pos _)
    rw [count_atx? hatx, hl.body]
  · split
    · rename_i level more hunder
      have hmore := underlined?_lt hunder
      have htext := (h.front ((List.prefix_cons_inj l).2 (List.take_prefix more rest))).joinedText
        (k := k)
      rw [List.length_cons, List.length_take_of_le hmore.le] at htext
      exact hheading htext.le (Nat.le_succ _) (by omega)
    · have hmore := prefix_continuation (k := k) true rest
      have htext := (h.front ((List.prefix_cons_inj l).2 hmore)).joinedText (k := k)
      rw [textsOf_singleton]
      exact .text htext.le le_rfl (Nat.succ_le_succ hmore.length_le)

theorem linesRead_plainBlock (h : LinesFrom pieces n (l :: rest)) (top : Bool) :
    LinesRead pieces n (l :: rest) (plainBlock k l rest).2
      (textsOf top (plainBlock k l rest).1) := by
  unfold plainBlock
  split
  · exact .none
  · split
    · exact .none
    · exact linesRead_textBlock h top

/-- The items of a list have the brackets of its lines. -/
theorem linesRead_listItems {nested : Reader} (hnested : nested.Bracketed pieces) : ∀ (fuel : Nat)
    {m : Marker} {ls : List Line} {n : Nat}, LinesFrom pieces n ls →
      (∀ l ∈ ls.head?, '[' ∉ l.body.take m.width) →
        LinesRead pieces n ls (listItems nested k fuel m ls).2
          (itemTexts (listItems nested k fuel m ls).1)
  | 0, _, _, _, _, _ => .none
  | _ + 1, _, [], _, _, _ => .none
  | fuel + 1, m, l :: ls, n, h, hm => by
    obtain ⟨rfl, hl, hls⟩ := h
    have hfirst : LinesFrom pieces l.number ((itemLine m l).1 :: ls) :=
      ⟨rfl, hl.itemLine (hm l rfl), hls⟩
    unfold listItems
    dsimp only
    generalize hfound : (if (itemLine m l).1.isBlank && (ls.head?.map Line.isBlank).getD true
      then ([], 2) else nested _ ((itemLine m l).1 :: ls)) = found
    have hitem : LinesRead pieces l.number (l :: ls) found.2 (textsOf false found.1) := by
      rw [← hfound]
      split
      · exact .none
      · exact hnested _ _ _ hfirst false
    have hread : max 1 (min found.2 (ls.length + 1)) ≤ (l :: ls).length := by
      rw [List.length_cons]
      omega
    have htexts : Within pieces (bracketsBefore pieces l.number)
        (bracketsBefore pieces (l.number + max 1 (min found.2 (ls.length + 1))))
        (textsOf false found.1) :=
      hitem.widen le_rfl (bracketsBefore_mono pieces (Nat.add_le_add_left (le_max_right _ _) _))
    have hpos : 1 ≤ max 1 (min found.2 (ls.length + 1)) := le_max_left _ _
    generalize max 1 (min found.2 (ls.length + 1)) = read at hread htexts hpos ⊢
    have honly : LinesRead pieces l.number (l :: ls) read (itemTexts [found.1]) := by
      rw [itemTexts, itemTexts, List.append_nil]
      exact .intro htexts le_rfl hread
    have hrest := hls.drop (read - 1)
    rw [Nat.add_assoc, Nat.add_sub_cancel' hpos] at hrest
    split
    · exact honly
    · rename_i next behind heq
      split
      · exact honly
      · split
        · exact honly
        · split
          · rename_i m' hmarker hcontinues
            have hmore := linesRead_listItems hnested fuel (m := m') hrest (by
              rw [heq]
              intro l' hl'
              cases hl'
              exact not_mem_marker hmarker)
            refine .append htexts hmore le_rfl ?_
            rw [List.length_drop, List.length_cons]
            rw [List.length_cons] at hread
            omega
          · exact honly

/-- A table has the brackets of its first line and of those of its rows. -/
theorem linesRead_table {next : Line} {more : List Line} {header : List (List Char)}
    (h : LinesFrom pieces n (l :: next :: more)) (hheader : bracketsIn header ≤ l.body.count '[')
    (top : Bool) :
    LinesRead pieces n (l :: next :: more) ((tableRowsFrom k header.length 0 more).length + 2)
      (textsOf top [.table n header (tableRowsFrom k header.length 0 more)]) := by
  obtain ⟨rfl, hl, -⟩ := id h
  have hrows := within_tableRowsFrom (k := k) header.length 0 (h.drop 2)
  rw [List.drop_succ_cons, List.drop_succ_cons, List.drop_zero] at hrows
  have hlength := length_tableRowsFrom_le (k := k) header.length more 0
  generalize tableRowsFrom k header.length 0 more = rows at hrows hlength ⊢
  rw [textsOf_singleton, Nat.add_comm rows.length 2]
  -- the line between the head and the rows has no cells
  have hhead := (hl.cellTexts header hheader).widen le_rfl
    (bracketsBefore_mono pieces (Nat.le_succ _))
  have hbody := LinesRead.intro hrows le_rfl hlength
  refine .append (m := 2) hhead hbody le_rfl ?_
  rw [List.length_cons, List.length_cons]
  omega

/-- **The block that begins at a line has the brackets of this line and those behind it.** -/
theorem linesRead_readBlock {nested : Reader} (hnested : nested.Bracketed pieces)
    (h : LinesFrom pieces n (l :: rest)) (top : Bool) :
    LinesRead pieces n (l :: rest) (readBlock nested k l rest).2
      (textsOf top (readBlock nested k l rest).1) := by
  obtain ⟨rfl, hl, hrest⟩ := id h
  unfold readBlock
  split
  · rename_i header rows htable
    obtain ⟨_, hhead, heq⟩ := Option.map_eq_some_iff.1 htable
    cases heq
    obtain ⟨next, more, rfl, hheader⟩ := exists_of_tableHead? hhead
    exact linesRead_table h hheader.le top
  split
  · exact .none
  split
  · exact .none
  split
  · rename_i q hq
    have hquote : LinesFrom pieces l.number (q :: quoteLines k q.isBlank rest) :=
      ⟨number_quoted? hq, hl.quoted? hq, linesFrom_quoteLines hrest _⟩
    have hquoted := hnested ⟨0, k.outer, k.level + 1⟩ _ _ hquote false
    dsimp only
    rw [textsOf_singleton]
    refine hquoted.widen le_rfl (bracketsBefore_mono pieces ?_)
    have hlength := length_quoteLines_le (k := k) q.isBlank rest
    rw [List.length_cons, List.length_cons]
    omega
  split
  · exact .none
  split
  · rename_i m hm
    rw [textsOf_singleton]
    refine linesRead_listItems hnested _ h fun l' hl' => ?_
    cases hl'
    exact not_mem_marker (marker?_of_itemAt? hm)
  · exact linesRead_plainBlock h top

theorem linesRead_readBlocks {nested : Reader} (hnested : nested.Bracketed pieces) (top : Bool) :
    ∀ (fuel : Nat) {ls : List Line} {n : Nat}, LinesFrom pieces n ls →
      LinesRead pieces n ls (readBlocks nested k fuel ls).2
        (textsOf top (readBlocks nested k fuel ls).1)
  | 0, _, _, _ => .none
  | fuel + 1, ls, n, h => by
    unfold readBlocks
    dsimp only
    have hdrop := h.drop (ls.takeWhile Line.isBlank).length
    generalize (ls.takeWhile Line.isBlank).length = blanks at hdrop ⊢
    split
    · exact .none
    · rename_i l rest heq
      rw [heq] at hdrop
      split_ifs
      · exact .none
      · exact .none
      · have hlength := congrArg List.length heq
        rw [List.length_drop] at hlength
        have hblock := linesRead_readBlock (k := k) hnested hdrop top
        -- no more lines than there are can be read
        have hread : ls.drop (blanks + max 1 (readBlock nested k l rest).2) =
            ls.drop (min (blanks + max 1 (readBlock nested k l rest).2) ls.length) := by
          rcases le_total (blanks + max 1 (readBlock nested k l rest).2) ls.length with hle | hle
          · rw [min_eq_left hle]
          · rw [min_eq_right hle, List.drop_length, List.drop_of_length_le hle]
        rw [hread, textsOf_append]
        refine .append (hblock.widen (bracketsBefore_mono pieces (Nat.le_add_right _ _))
          (bracketsBefore_mono pieces ?_)) (linesRead_readBlocks hnested top fuel (h.drop _))
          (min_le_left _ _) ?_
        · rw [List.length_cons] at hlength ⊢
          omega
        · rw [List.length_drop]
          omega

/-- **Containers in each other have the brackets of the lines they are read from**, however deep
they are. -/
theorem bracketed_readNested (pieces : List (List Char)) : ∀ depth,
    (readNested depth).Bracketed pieces
  | 0 => fun _ _ _ _ _ => .none
  | depth + 1 => fun _ _ _ h top => linesRead_readBlocks (bracketed_readNested pieces depth) top _ h

/-- **The texts of a document stand in a row, each with its own brackets.** -/
theorem within_textsOf (text : List Char) (top : Bool) :
    Within (cutOn '\n' (normalized text)) 0 (bracketsIn (cutOn '\n' (normalized text)))
      (textsOf top (blocksOf text)) := by
  have hlines : LinesFrom (cutOn '\n' (normalized text)) 0 (documentLines text) := by
    refine linesFrom_numbered ?_
    rw [List.drop_zero]
    split_ifs
    · exact List.dropLast_prefix _
    · exact List.prefix_refl _
  exact (bracketed_readNested _ (maxLevel + 1) ⟨0, none, 0⟩ 0 _ hlines top).widen le_rfl
    (bracketsIn_take_le _ _)

/-! ## Links and their brackets -/

/-- A link in a text of a document: the lines of its block, from `first` up to `stop`, the number of
brackets before its own start, its address, and whether it is bare. -/
structure LinkMark where
  first : Nat
  stop : Nat
  number : Nat
  address : List Char
  bare : Bool

/-- A link at a place of a text. -/
def Stretch.mark (pieces : List (List Char)) (t : Stretch) (l : LinkSpot) : LinkMark :=
  ⟨t.first, t.stop, t.start pieces + (t.chars.take l.place).count '[', l.address, l.bare⟩

/-- The links of a text. -/
def Stretch.marks (pieces : List (List Char)) (labels : Labels) (t : Stretch) : List LinkMark :=
  (linkSpots labels t.chars).map (t.mark pieces)

/-- **The links in the texts of a document**, outside of headings that begin sections. -/
def linkMarks (text : List Char) : List LinkMark :=
  (textsOf true (blocksOf text)).flatMap
    (Stretch.marks (cutOn '\n' (normalized text)) (allDefinitions (blocksOf text)))

/-- The links that begin with a bracket. -/
def bracketMarks (ms : List LinkMark) : List LinkMark := ms.filter (!·.bare)

/-- Links one behind the other begin with brackets that follow each other. -/
theorem inRow_bracketMarks (pieces : List (List Char)) (t : Stretch) {start stop : Nat}
    {l : List LinkSpot} (h : InOrder t.chars start stop l) :
    InRow LinkMark.number (·.number + 1) (t.start pieces + (t.chars.take start).count '[')
      (t.start pieces + (t.chars.take stop).count '[') (bracketMarks (l.map (t.mark pieces))) := by
  have hmono {i j : Nat} (hle : i ≤ j) :
      t.start pieces + (t.chars.take i).count '[' ≤ t.start pieces + (t.chars.take j).count '[' :=
    Nat.add_le_add_left ((List.take_prefix_take_left hle).sublist.count_le _) _
  obtain ⟨hrow, hbrackets⟩ := h
  induction l generalizing start with
  | nil => trivial
  | cons a l ih =>
    obtain ⟨hfirst, -, hlast, hrest⟩ := hrow
    obtain ⟨hbracket, hbrackets⟩ := List.forall_mem_cons.1 hbrackets
    have hbehind := ih hrest hbrackets
    cases hbare : a.bare with
    | true =>
      have hnone : bracketMarks ((a :: l).map (t.mark pieces)) =
          bracketMarks (l.map (t.mark pieces)) :=
        List.filter_cons_of_neg (by simpa [Stretch.mark] using hbare)
      rw [hnone]
      exact hbehind.widen (hmono (hfirst.trans (Nat.le_succ _))) le_rfl
    | false =>
      have hone : bracketMarks ((a :: l).map (t.mark pieces)) =
          t.mark pieces a :: bracketMarks (l.map (t.mark pieces)) :=
        List.filter_cons_of_pos (by simpa [Stretch.mark] using hbare)
      have hnext : (t.chars.take (a.place + 1)).count '[' =
          (t.chars.take a.place).count '[' + 1 := by
        rw [List.take_add_one, hbracket hbare, List.count_append]
        rfl
      rw [hnext] at hbehind
      rw [hone]
      refine ⟨hmono hfirst, Nat.le_succ _, ?_, hbehind⟩
      exact (congrArg (t.start pieces + ·) hnext).ge.trans (hmono hlast)

/-- **Each link that begins with a bracket has one of its own**: the numbers of brackets increase
from link to link, and there are as many brackets. -/
theorem inRow_linkMarks (text : List Char) :
    InRow LinkMark.number (·.number + 1) 0 (bracketsIn (cutOn '\n' (normalized text)))
      (bracketMarks (linkMarks text)) := by
  rw [bracketMarks, linkMarks, List.filter_flatMap]
  refine (within_textsOf text true).flatMap fun t => ?_
  have h := inRow_bracketMarks (cutOn '\n' (normalized text)) t
    (inOrder_linkSpots (allDefinitions (blocksOf text)) t.chars)
  rwa [List.take_zero, List.count_nil, Nat.add_zero, List.take_length] at h

end Markdown

end Outline

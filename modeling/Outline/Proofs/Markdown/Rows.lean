import Outline.Proofs.Markdown.Read

/-!
# Reading tables

A row of cells between bars, a row of hyphens for as many columns and another row of as many cells
are read as a table with one row in its body (`Reads.table`).

* `CellText`: a text that can stand in a cell;
* `barRow`, `barRuler`: rows as they are written;
* `cells_barRow`, `columnCount?_barRuler`: what is read from them.
-/

namespace Outline.Markdown

/-! ## Cells -/

/-- A text that can stand in a cell. -/
structure CellText (text : List Char) : Prop where
  chars : ∀ c ∈ text, c ≠ '|' ∧ c ≠ '\\'
  trimmed : trim isBlank text = text

/-- A row of a table, with bars at both ends. -/
def barRow (row : List (List Char)) : List Char :=
  '|' :: row.flatMap fun cell => ' ' :: (cell ++ [' ', '|'])

/-- The row of hyphens for a number of columns. -/
def barRuler (columns : Nat) : List Char :=
  '|' :: (List.replicate columns ['-', '-', '-', '|']).flatten

theorem trim_padded {text : List Char} (h : trim isBlank text = text) :
    trim isBlank (' ' :: (text ++ [' '])) = text := by
  have hleft : trimLeft isBlank (' ' :: (text ++ [' '])) = trimLeft isBlank (text ++ [' ']) :=
    List.dropWhile_cons_of_pos rfl
  obtain ⟨hhead, hlast⟩ := trim_eq_self_iff.1 h
  cases text with
  | nil => decide
  | cons c cs =>
    have hkeep : trimLeft isBlank (c :: cs ++ [' ']) = c :: cs ++ [' '] :=
      trimLeft_eq_self_iff.2 hhead
    rw [trim, hleft, hkeep, trimRight_eq_rdropWhile, List.rdropWhile_concat_pos _ _ _ (by rfl)]
    exact trimRight_eq_self_iff.2 hlast

theorem rawCells_append {cs : List Char} (h : ∀ c ∈ cs, c ≠ '|' ∧ c ≠ '\\') (rest : List Char) :
    rawCells false (cs ++ '|' :: rest) = cs :: rawCells false rest := by
  induction cs with
  | nil => rfl
  | cons c cs ih =>
    obtain ⟨⟨hbar, hslash⟩, hcs⟩ := List.forall_mem_cons.1 h
    have hc : (c == '\\') = false := by simpa using hslash
    rw [List.cons_append, rawCells, hc, ih hcs]
    simp [hbar]

theorem rawCells_barRow {row : List (List Char)} (h : ∀ cell ∈ row, CellText cell) :
    rawCells false (barRow row) = [] :: (row.map fun cell => ' ' :: (cell ++ [' '])) ++ [[]] := by
  have hcells : rawCells false (row.flatMap fun cell => ' ' :: (cell ++ [' ', '|'])) =
      (row.map fun cell => ' ' :: (cell ++ [' '])) ++ [[]] := by
    induction row with
    | nil => rfl
    | cons cell row ih =>
      obtain ⟨hcell, hrow⟩ := List.forall_mem_cons.1 h
      have hchars : ∀ c ∈ ' ' :: (cell ++ [' ']), c ≠ '|' ∧ c ≠ '\\' := by
        intro c hc
        rcases List.mem_cons.1 hc with rfl | hc
        · decide
        · rcases List.mem_append.1 hc with hc | hc
          · exact hcell.chars c hc
          · rw [List.mem_singleton.1 hc]
            decide
      have happend : ' ' :: (cell ++ [' ', '|']) =
          ' ' :: (cell ++ [' ']) ++ ['|'] := by simp
      rw [List.flatMap_cons, happend, List.append_assoc, List.singleton_append,
        rawCells_append hchars, ih hrow, List.map_cons, List.cons_append]
  rw [barRow, rawCells, hcells]
  rfl

theorem trim_bars (cs : List Char) :
    trim isBlank ('|' :: (cs ++ ['|'])) = '|' :: (cs ++ ['|']) := by
  refine trim_eq_self_iff.2 ⟨fun c hc => ?_, fun c hc => ?_⟩
  · rw [← Option.mem_some.1 hc]
    decide
  · rw [← List.cons_append, List.getLast?_concat] at hc
    rw [← Option.mem_some.1 hc]
    decide

theorem exists_barRow {row : List (List Char)} (h : row ≠ []) :
    ∃ cs, barRow row = '|' :: (cs ++ ['|']) := by
  obtain ⟨front, cell, rfl⟩ : ∃ front cell, row = front ++ [cell] :=
    ⟨row.dropLast, row.getLast h, (List.dropLast_append_getLast h).symm⟩
  refine ⟨front.flatMap (fun cell => ' ' :: (cell ++ [' ', '|'])) ++ ' ' :: (cell ++ [' ']), ?_⟩
  simp [barRow]

/-- **The cells of a row with bars at both ends.** -/
theorem cells_barRow {row : List (List Char)} (hsome : row ≠ [])
    (h : ∀ cell ∈ row, CellText cell) : cells (barRow row) = row := by
  have htrim : trim isBlank (barRow row) = barRow row := by
    obtain ⟨cs, hcs⟩ := exists_barRow hsome
    rw [hcs, trim_bars]
  have hmap : (row.map fun cell => ' ' :: (cell ++ [' '])).map (trim isBlank) = row := by
    rw [List.map_map]
    refine (List.map_congr_left fun cell hcell => ?_).trans (List.map_id row)
    exact trim_padded (h cell hcell).trimmed
  unfold cells
  dsimp only
  rw [htrim, rawCells_barRow h]
  simp only [List.cons_append, List.head?_cons, beq_self_eq_true, if_true, List.drop_succ_cons,
    List.drop_zero, List.getLast?_concat, List.dropLast_concat, hmap]

/-! ## Tables -/

/-- **The row of hyphens sets the number of columns.** -/
theorem columnCount?_barRuler (columns : Nat) :
    columnCount? (barRuler (columns + 1)) = some (columns + 1) := by
  have hcut : ∀ n, cutOn '|' (List.replicate n ['-', '-', '-', '|']).flatten =
      List.replicate n ['-', '-', '-'] ++ [[]] := by
    intro n
    induction n with
    | zero => rfl
    | succ n ih =>
      have hstep := cut_append (p := (· == '|')) (l := ['-', '-', '-']) (by decide)
        (beq_self_eq_true '|')
        (List.replicate n ['-', '-', '-', '|']).flatten
      rw [List.replicate_succ, List.flatten_cons]
      refine hstep.trans ?_
      rw [show cut (· == '|') _ = _ from ih]
      rfl
  have hparts : (cutOn '|' (barRuler (columns + 1))).map (trim isBlank) =
      [] :: List.replicate (columns + 1) ['-', '-', '-'] ++ [[]] := by
    have hfirst : cutOn '|' (barRuler (columns + 1)) =
        [] :: cutOn '|' (List.replicate (columns + 1) ['-', '-', '-', '|']).flatten := rfl
    rw [hfirst, hcut, List.map_cons, List.map_append, List.map_replicate]
    rfl
  have hchars : (barRuler (columns + 1)).all (fun c => isColumnsChar c || isIndent c) = true := by
    rw [barRuler, List.all_cons, List.all_flatten]
    simp [isColumnsChar]
  have hcons : barRuler (columns + 1) = '|' :: '-' :: (['-', '-', '|'] ++
      (List.replicate columns ['-', '-', '-', '|']).flatten) := rfl
  have hcolumns : (List.replicate (columns + 1) ['-', '-', '-']).all isColumn = true := by
    simp [isColumn]
  rw [hcons] at hparts hchars ⊢
  unfold columnCount?
  dsimp only
  rw [hparts, hchars]
  rw [if_pos (by rfl)]
  simp only [List.cons_append, List.head?_cons, beq_self_eq_true, if_true, List.drop_succ_cons,
    List.drop_zero, List.getLast?_concat, List.dropLast_concat, hcolumns, List.length_replicate]

section

variable {header row : List (List Char)} {number : Nat} {rest : List Line}

theorem tableHead?_barRow (hsome : header ≠ []) (h : ∀ cell ∈ header, CellText cell) :
    tableHead? outermost (edgeLine number (barRow header) ::
      edgeLine (number + 1) (barRuler header.length) :: rest) = some header := by
  obtain ⟨cs, hcs⟩ := exists_barRow hsome
  have htrim : trim isBlank (barRow header) = barRow header := by
    rw [hcs, trim_bars]
  have hcolumns : columnCount? (barRuler header.length) = some header.length := by
    obtain ⟨n, hn⟩ : ∃ n, header.length = n + 1 :=
      ⟨header.length - 1, by have := List.length_pos_iff.2 hsome; omega⟩
    rw [hn, columnCount?_barRuler]
  have hbody : (edgeLine number (barRow header)).body = barRow header := rfl
  have hruler : (edgeLine (number + 1) (barRuler header.length)).body = barRuler header.length :=
    rfl
  have hbar : (barRow header).contains '|' = true := by
    simp [barRow]
  rw [tableHead?, if_neg (by simp [edgeLine, outermost, Line.isCode]), hbody, hruler, htrim]
  dsimp only
  rw [hbar, cells_barRow hsome h, hcolumns]
  simp [List.length_pos_iff.2 hsome]

theorem tableRowsFrom_blank (k : Inside) (columns : Nat) (filled : Int)
    (hblank : ∀ l ∈ rest.head?, l.isBlank = true) : tableRowsFrom k columns filled rest = [] := by
  cases rest with
  | nil => rfl
  | cons l rest =>
    have hbody : l.body = [] := List.isEmpty_iff.1 (hblank l rfl)
    rw [tableRowsFrom, hbody]
    simp

theorem tableRowsFrom_barRow (hsome : row ≠ []) (h : ∀ cell ∈ row, CellText cell)
    (hblank : ∀ l ∈ rest.head?, l.isBlank = true) :
    tableRowsFrom outermost row.length 0 (edgeLine number (barRow row) :: rest) =
      [(number, row)] := by
  have hbody : (edgeLine number (barRow row)).body = barRow row := rfl
  have hitem : itemAt? outermost false (edgeLine number (barRow row)) = none := by
    unfold itemAt?
    rw [hbody, barRow, marker?_of_beginsText (by decide)]
    simp
  have hquote : interruptsQuote outermost (edgeLine number (barRow row)) = false := by
    rw [interruptsQuote, interruptsList_of_beginsText hbody (by decide), hitem, hbody, barRow,
      interruptingHtml, htmlStart?_of_ne (by decide), atx?_of_ne (by decide)]
    simp
  have hfill : fillCells row.length row = row := by
    simp [fillCells]
  have hwritten : (barRow row).all Outline.isBlank = false := by
    simp [barRow, Outline.isBlank]
  rw [tableRowsFrom, hquote, hbody, hwritten, cells_barRow hsome h,
    if_neg (by simp [edgeLine, outermost, Line.isCode])]
  dsimp only
  rw [hfill, tableRowsFrom_blank _ _ _ hblank]
  simp [maxFilledCells, edgeLine]

/-- **A row, a row of hyphens and another row are a table.** -/
theorem Reads.table (hheader : header ≠ []) (hcells : ∀ cell ∈ header, CellText cell)
    (hcells' : ∀ cell ∈ row, CellText cell) (hlength : row.length = header.length)
    (hblank : ∀ l ∈ rest.head?, l.isBlank = true) {bs : List Block} (h : Reads rest bs) :
    Reads (edgeLines number [barRow header, barRuler header.length, barRow row] ++ rest)
      (.table number header [(number + 2, row)] :: bs) := by
  have hrow : row ≠ [] := List.ne_nil_of_length_pos (hlength ▸ List.length_pos_iff.2 hheader)
  have hrows : tableRowsFrom outermost header.length 0
      (edgeLine (number + 1 + 1) (barRow row) :: rest) = [(number + 2, row)] := by
    rw [← hlength]
    exact tableRowsFrom_barRow hrow hcells' hblank
  have hblock : readBlock (readNested maxLevel) outermost (edgeLine number (barRow header))
      (edgeLine (number + 1) (barRuler header.length) ::
        edgeLine (number + 1 + 1) (barRow row) :: rest) =
      ([.table number header [(number + 2, row)]], 3) := by
    rw [readBlock, tableAt?, tableHead?_barRow hheader hcells, Option.map_some]
    dsimp only
    rw [List.drop_succ_cons, List.drop_succ_cons, List.drop_zero, hrows]
    rfl
  exact Reads.block rfl (Int.le_refl 0) hblock rfl h

end

end Outline.Markdown

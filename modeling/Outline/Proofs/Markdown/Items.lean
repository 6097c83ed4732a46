import Outline.Proofs.Markdown.Read

/-!
# Reading lists

Lines that begin with the sign of an item are read as the items of one list: what is inside of each
is a paragraph of one line (`readNested_item`), which the next item, an empty line or the end of the
document ends. `listItems_next` and `listItems_last` are the steps, `listItems_items` the run, and
`Reads.list` says what becomes of the lines in a document.

* `ItemText`: a text of one line that can stand in an item;
* `ItemSign`: the sign of an item: a bullet, or a number and a point;
* `EndsList`: lines that do not go on with a list before them.
-/

namespace Outline.Markdown

/-! ## Items -/

/-- A text of one line that can stand in an item. -/
structure ItemText (text : List Char) : Prop where
  start : ∃ c cs, text = c :: cs ∧ beginsText c = true ∧ c ≠ '[' ∧ c ≠ '<' ∧ c ≠ '#' ∧
    isIndent c = false
  trimmed : trim isBlank text = text
  bar : '|' ∉ text

/-- The sign of an item: what stands before the blank and the text of the item. -/
structure ItemSign (sign : List Char) (m : Marker) : Prop where
  marker : ∀ text, marker? (sign ++ ' ' :: text) = some m
  width : m.width = sign.length
  indent : ∀ c ∈ sign, isIndent c = false
  opens : ∀ number text, ItemText text →
    interruptsList outermost (edgeLine number (sign ++ ' ' :: text)) = false
  bar : '|' ∉ sign

/-- The first line of an item as it is seen inside. -/
def innerLine (number : Nat) (sign text : List Char) : Line :=
  ⟨number, sign ++ ' ' :: text, sign.length + 1, sign.length + 1, 0⟩

/-- The container that an item of a list in the document is. -/
def insideItem (sign : List Char) : Inside := ⟨sign.length + 1, some 0, 2⟩

theorem itemLine_edgeLine {sign text : List Char} {m : Marker} (hsign : ItemSign sign m)
    (htext : ItemText text) (number : Nat) :
    itemLine m (edgeLine number (sign ++ ' ' :: text)) =
      (innerLine number sign text, sign.length + 1) := by
  obtain ⟨c, cs, rfl, -, -, -, -, hindent⟩ := htext.start
  have hbody : (edgeLine number (sign ++ ' ' :: c :: cs)).body = sign ++ ' ' :: c :: cs := rfl
  have hblanks : (' ' :: c :: cs).takeWhile isIndent = [' '] := by
    rw [List.takeWhile_cons_of_pos (by rfl), List.takeWhile_cons_of_neg (by simp [hindent])]
  unfold itemLine
  rw [hbody, hsign.width, List.drop_left]
  dsimp only
  rw [hblanks, if_neg (by simp [indentWidth])]
  simp [edgeLine, innerLine, indentWidth]

/-- Columns without tabs are cut off one by one. -/
theorem cutColumns_append {sign : List Char} (hindent : ∀ c ∈ sign, c ≠ '\t') {c : Char}
    (cs : List Char) : ∀ {columns free done : Nat}, columns = done + sign.length →
      sign.length ≤ free → Line.cutColumns 0 columns free done (sign ++ c :: cs) = c :: cs := by
  induction sign with
  | nil =>
    intro columns free done hcolumns _
    rw [List.nil_append, Line.cutColumns, if_pos (by simp [hcolumns])]
    simp [hcolumns]
  | cons d sign ih =>
    obtain ⟨hd, hsign⟩ := List.forall_mem_cons.1 hindent
    intro columns free done hcolumns hfree
    rw [List.length_cons] at hcolumns hfree
    rw [List.cons_append, Line.cutColumns, if_neg (by omega), if_neg (by simpa using hd),
      if_pos (by simp; omega), ih hsign (by omega) (by omega)]

theorem joinedText_innerLine {sign text : List Char} {m : Marker} (hsign : ItemSign sign m)
    (htext : ItemText text) (number : Nat) :
    joinedText (insideItem sign) [innerLine number sign text] = text := by
  have htab : ∀ c ∈ sign ++ [' '], c ≠ '\t' := by
    simp only [List.mem_append, List.mem_singleton]
    rintro c (hc | rfl)
    · rintro rfl
      exact absurd (hsign.indent _ hc) (by decide)
    · decide
  obtain ⟨c, cs, hcs, -⟩ := htext.start
  have hcut : (innerLine number sign text).inside (insideItem sign).indent = text := by
    rw [innerLine, insideItem, Line.inside, hcs, ← List.singleton_append, ← List.append_assoc]
    exact cutColumns_append htab cs (by simp) (by simp)
  rw [joinedText, List.map_singleton, hcut, List.intercalate_singleton]
  exact htext.trimmed

section

variable {sign text : List Char} {m : Marker} {ls : List Line}

/-- **The inside of an item is a paragraph**, as long as what follows does not go on with it. -/
theorem readNested_item (hsign : ItemSign sign m) (htext : ItemText text) (number : Nat)
    (houtside : ∀ l ∈ ls, l.indent = 0) (hends : EndsText (insideItem sign) ls) :
    readNested maxLevel (insideItem sign) (innerLine number sign text :: ls) =
      ([.paragraph number (number + 1) text], 1 + (ls.takeWhile Line.isBlank).length) := by
  have hleft : ∀ l ∈ ls, l.indent < (insideItem sign).indent := fun l hl => by
    rw [houtside l hl]
    exact Int.natCast_pos.2 (Nat.succ_pos _)
  obtain ⟨c, cs, hcs, hc, hdefinition, hhtml, hheading, hindent⟩ := htext.start
  have hbody : (innerLine number sign text).body = c :: cs := by
    rw [innerLine, Line.body, ← List.singleton_append, ← List.append_assoc, ← hcs]
    exact List.drop_left' (by simp)
  have hcode : (innerLine number sign text).isCode (insideItem sign).indent = false := by
    simp [innerLine, insideItem, Line.isCode]
  have htable : tableHead? (insideItem sign) (innerLine number sign text :: ls) = none := by
    cases ls with
    | nil => rfl
    | cons next ls =>
      rw [tableHead?, if_pos]
      simp [hleft next List.mem_cons_self]
  have hblock : readBlock (readNested 19) (insideItem sign) (innerLine number sign text) ls =
      ([.paragraph number (number + 1) text], 1) := by
    rw [readBlock_paragraph _ hbody hc hdefinition hhtml hheading hcode htable hends,
      joinedText_innerLine hsign htext]
    rfl
  have hrest : readBlocks (readNested 19) (insideItem sign) (ls.length + 1) ls = _ :=
    readBlocks_outside (readNested 19) ls.length fun l hl =>
      hleft l ((List.dropWhile_sublist _).subset (List.mem_of_mem_head? hl))
  rw [maxLevel, readNested]
  dsimp only
  rw [List.length_cons, readBlocks_block _ _ (by rw [Line.isBlank, hbody]; rfl)
    (by simp [innerLine, insideItem]) (show 2 < maxLevel by decide), hblock]
  dsimp only
  rw [show max 1 1 = 1 from rfl, List.drop_succ_cons, List.drop_zero, hrest]
  rfl

/-- An item ends the paragraph in the item before it. -/
theorem ItemSign.endsText {sign' : List Char} {m' : Marker} (hsign' : ItemSign sign' m')
    (sign : List Char) (number : Nat) (text : List Char) (rest : List Line) :
    EndsText (insideItem sign) (edgeLine number (sign' ++ ' ' :: text) :: rest) := by
  have hcode : (edgeLine number (sign' ++ ' ' :: text)).isCode (insideItem sign).indent =
      false := by
    simp [edgeLine, insideItem, Line.isCode]
    omega
  have hitem : itemAt? (insideItem sign) true (edgeLine number (sign' ++ ' ' :: text)) =
      some m' := by
    unfold itemAt?
    rw [hcode]
    have hbody : (edgeLine number (sign' ++ ' ' :: text)).body = sign' ++ ' ' :: text := rfl
    rw [hbody, hsign'.marker]
    have hleft : ¬ ((sign.length : Int) + 1 ≤ 0) := by omega
    simp [edgeLine, insideItem, hleft]
  refine EndsText.of_interrupts ?_ hcode (Int.le_refl 0) (Int.natCast_pos.2 (Nat.succ_pos _)) ?_
  · rw [isBlank_edgeLine]
    cases sign' <;> rfl
  · rw [interrupts, hitem]
    simp

end

/-! ## Lists -/

/-- The lines do not go on with a list before them. -/
structure EndsList (rest : List Line) : Prop where
  edge : ∀ l ∈ rest, l.indent = 0
  blank : ∀ l ∈ rest.head?, l.isBlank = true
  marker : ∀ l ∈ (rest.dropWhile Line.isBlank).head?, marker? l.body = none

section

variable {sign : Nat → List Char} {marker : Nat → Marker} {text : List Char}

/-- The lines of items with the same text. -/
def itemLines (sign : Nat → List Char) (text : List Char) (first count : Nat) :
    List (List Char) :=
  (List.range' first count).map fun j => sign j ++ ' ' :: text

theorem isBlank_innerLine (number : Nat) (sign : List Char) (htext : ItemText text) :
    (innerLine number sign text).isBlank = false := by
  obtain ⟨c, cs, hcs, -⟩ := htext.start
  have hbody : (innerLine number sign text).body = text := by
    rw [innerLine, Line.body, ← List.singleton_append, ← List.append_assoc]
    exact List.drop_left' (by simp)
  rw [Line.isBlank, hbody, hcs]
  rfl

theorem length_item (ls : List Line) :
    max 1 (min (1 + (ls.takeWhile Line.isBlank).length) (ls.length + 1)) =
      1 + (ls.takeWhile Line.isBlank).length := by
  have := (List.takeWhile_sublist (l := ls) Line.isBlank).length_le
  omega

theorem EndsList.endsText {rest : List Line} (h : EndsList rest) (k : Inside) :
    EndsText k rest := by
  cases rest with
  | nil => exact .nil
  | cons l rest => exact .of_blank (h.blank l rfl)

/-- The last item of a list in the document. -/
theorem listItems_last {sign : List Char} {m : Marker} (hsign : ItemSign sign m)
    (htext : ItemText text) (fuel number : Nat) {rest : List Line} (hrest : EndsList rest) :
    listItems (readNested maxLevel) outermost (fuel + 1) m
        (edgeLine number (sign ++ ' ' :: text) :: rest) =
      ([[.paragraph number (number + 1) text]], 1 + (rest.takeWhile Line.isBlank).length) := by
  have hnested : readNested maxLevel ⟨sign.length + 1, some outermost.indent, outermost.level + 2⟩
      (innerLine number sign text :: rest) = _ :=
    readNested_item hsign htext number hrest.edge (hrest.endsText _)
  have hmarker := hrest.marker
  rw [listItems]
  simp only [itemLine_edgeLine hsign htext, isBlank_innerLine number sign htext, Bool.false_and,
    Bool.false_eq_true, if_false, hnested, length_item, Nat.add_sub_cancel_left,
    drop_length_takeWhile]
  cases hls : rest.dropWhile Line.isBlank with
  | nil => rfl
  | cons h ls =>
    rw [hls] at hmarker
    simp only [hmarker h rfl, ite_self]

/-- An item of a list in the document, with another one behind it. -/
theorem listItems_next {sign sign' : List Char} {m m' : Marker} (hsign : ItemSign sign m)
    (hsign' : ItemSign sign' m') (hcontinues : m.continues m' = true) (htext : ItemText text)
    (fuel number : Nat) {ls rest : List Line} (hedge : ∀ l ∈ rest, l.indent = 0)
    (hls : ls = edgeLine (number + 1) (sign' ++ ' ' :: text) :: rest) :
    listItems (readNested maxLevel) outermost (fuel + 1) m
        (edgeLine number (sign ++ ' ' :: text) :: ls) =
      ([.paragraph number (number + 1) text] ::
        (listItems (readNested maxLevel) outermost fuel m' ls).1,
      1 + (listItems (readNested maxLevel) outermost fuel m' ls).2) := by
  have hnested : readNested maxLevel ⟨sign.length + 1, some outermost.indent, outermost.level + 2⟩
      (innerLine number sign text :: ls) = _ :=
    readNested_item hsign htext number (hls ▸ List.forall_mem_cons.2 ⟨rfl, hedge⟩)
      (hls ▸ hsign'.endsText sign (number + 1) text rest)
  have hblank : (edgeLine (number + 1) (sign' ++ ' ' :: text)).isBlank = false := by
    cases sign' <;> rfl
  have htake : ls.takeWhile Line.isBlank = [] := by
    rw [hls, List.takeWhile_cons_of_neg (by simp [hblank])]
  have hdrop : ls.dropWhile Line.isBlank = ls := by
    rw [hls, List.dropWhile_cons_of_neg (by simp [hblank])]
  have hopens := hsign'.opens (number + 1) text htext
  have hbody : (edgeLine (number + 1) (sign' ++ ' ' :: text)).body = sign' ++ ' ' :: text := rfl
  have hstays : ¬ ((edgeLine (number + 1) (sign' ++ ' ' :: text)).indent < outermost.indent ||
      (edgeLine (number + 1) (sign' ++ ' ' :: text)).isCode outermost.indent ||
      interruptsList outermost (edgeLine (number + 1) (sign' ++ ' ' :: text))) = true := by
    rw [hopens]
    simp [edgeLine, outermost, Line.isCode]
  rw [listItems]
  simp only [itemLine_edgeLine hsign htext, isBlank_innerLine number sign htext, Bool.false_and,
    Bool.false_eq_true, if_false, hnested, length_item, Nat.add_sub_cancel_left,
    drop_length_takeWhile, hdrop]
  rw [htake, hls]
  simp only [hstays, hbody, hsign'.marker, hcontinues, if_true, Bool.false_eq_true, if_false,
    List.length_nil, Nat.add_zero]

/-- **The items of a list in the document**, one on each line. -/
theorem listItems_items (hcontinues : ∀ i j, (marker i).continues (marker j) = true)
    (htext : ItemText text) {rest : List Line} (hrest : EndsList rest) (count : Nat) :
    ∀ {first fuel number : Nat}, (∀ j < first + count + 1, ItemSign (sign j) (marker j)) →
      count < fuel →
      listItems (readNested maxLevel) outermost fuel (marker first)
          (edgeLines number (itemLines sign text first (count + 1)) ++ rest) =
        ((List.range' number (count + 1)).map fun n => [.paragraph n (n + 1) text],
          count + 1 + (rest.takeWhile Line.isBlank).length) := by
  induction count with
  | zero =>
    intro first fuel number hsigns hfuel
    obtain ⟨fuel, rfl⟩ : ∃ n, fuel = n + 1 := ⟨fuel - 1, by omega⟩
    exact listItems_last (hsigns first (by omega)) htext fuel number hrest
  | succ count ih =>
    intro first fuel number hsigns hfuel
    obtain ⟨fuel, rfl⟩ : ∃ n, fuel = n + 1 := ⟨fuel - 1, by omega⟩
    have hlines : ∀ count, itemLines sign text first (count + 1) =
        (sign first ++ ' ' :: text) :: itemLines sign text (first + 1) count := fun _ => rfl
    have hedge : ∀ l ∈ edgeLines (number + 1 + 1) (itemLines sign text (first + 1 + 1) count) ++
        rest, l.indent = 0 := fun l hl =>
      (List.mem_append.1 hl).elim (indent_edgeLines l) (hrest.edge l)
    have hnext : listItems (readNested maxLevel) outermost (fuel + 1) (marker first)
        (edgeLine number (sign first ++ ' ' :: text) ::
          (edgeLines (number + 1) (itemLines sign text (first + 1) (count + 1)) ++ rest)) = _ :=
      listItems_next (hsigns first (by omega)) (hsigns (first + 1) (by omega))
        (hcontinues first (first + 1)) htext fuel number hedge rfl
    rw [hlines, edgeLines, List.cons_append, hnext,
      ih (fun j hj => hsigns j (by omega)) (by omega)]
    refine Prod.ext rfl ?_
    dsimp only
    omega

/-- An item begins at its line, and no table does. -/
theorem ItemSign.itemAt?_edgeLine {sign : List Char} {m : Marker} (hsign : ItemSign sign m)
    (htext : ItemText text) (number : Nat) :
    itemAt? outermost false (edgeLine number (sign ++ ' ' :: text)) = some m ∧
      '|' ∉ (edgeLine number (sign ++ ' ' :: text)).body := by
  have hbody : (edgeLine number (sign ++ ' ' :: text)).body = sign ++ ' ' :: text := rfl
  constructor
  · unfold itemAt?
    rw [hbody, hsign.marker]
    simp [edgeLine, outermost, Line.isCode]
  · rw [hbody, List.mem_append, List.mem_cons, not_or, not_or]
    exact ⟨hsign.bar, by decide, htext.bar⟩

/-- **Items in a row are one list.** -/
theorem Reads.list (hcontinues : ∀ i j, (marker i).continues (marker j) = true)
    (htext : ItemText text) {rest : List Line} {bs : List Block} (hrest : EndsList rest)
    (count : Nat) {first number : Nat}
    (hsigns : ∀ j < first + count + 1, ItemSign (sign j) (marker j))
    (hbs : Reads rest bs) :
    Reads (edgeLines number (itemLines sign text first (count + 1)) ++ rest)
      (.list (marker first).number.isSome number
        ((List.range' number (count + 1)).map fun n => [.paragraph n (n + 1) text]) :: bs) := by
  have hsign := hsigns first (by omega)
  have hlines : edgeLines number (itemLines sign text first (count + 1)) ++ rest =
      edgeLine number (sign first ++ ' ' :: text) ::
        (edgeLines (number + 1) (itemLines sign text (first + 1) count) ++ rest) := rfl
  have hlength : (edgeLines (number + 1) (itemLines sign text (first + 1) count)).length =
      count := by
    rw [length_edgeLines, itemLines, List.length_map, List.length_range']
  obtain ⟨hitem, hbar⟩ := hsign.itemAt?_edgeLine htext number
  have hfuel : count <
      (edgeLines (number + 1) (itemLines sign text (first + 1) count) ++ rest).length + 2 := by
    rw [List.length_append, hlength]
    omega
  have hitems : listItems (readNested maxLevel) outermost _ (marker first)
      (edgeLines number (itemLines sign text first (count + 1)) ++ rest) = _ :=
    listItems_items hcontinues htext hrest count hsigns hfuel
  rw [hlines] at hitems
  -- A sign may begin with a hyphen or a digit, so the line need not begin text.
  have hblock := readBlock_of_not_interruptsList (readNested maxLevel) (k := outermost)
    (hsign.opens number text htext) rfl (tableHead?_of_no_bar hbar
      (edgeLines (number + 1) (itemLines sign text (first + 1) count) ++ rest))
  rw [hitem] at hblock
  dsimp only at hblock
  rw [hitems] at hblock
  rw [hlines]
  refine Reads.block (by cases hs : sign first <;> rfl) (Int.le_refl 0) hblock ?_
    (Reads.dropWhile_iff.2 hbs)
  rw [← drop_length_takeWhile, List.drop_append, hlength, List.drop_eq_nil_of_le,
    List.nil_append]
  · congr 1
    dsimp only
    omega
  · rw [hlength]
    dsimp only
    omega

end

end Outline.Markdown

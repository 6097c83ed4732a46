import Mathlib.Tactic.SplitIfs
import Outline.Markdown.Read
import Outline.Proofs.Text.Blank

/-!
# Reading lines one by one

What the reader of blocks does at a line, said once for each kind of line that a template has: empty
lines, comments, headings, and paragraphs of one line. `Reads` says what all lines of a document are
read as; it is built up from the end of the document, block by block (`Reads.block`).

* `edgeLine`: a line that is not indented;
* `EndsText`: lines that do not go on with a paragraph before them;
* `Reads`: the blocks that the lines of a document are read as.
-/

namespace Outline.Markdown

/-! ## Lines at the left edge -/

/-- A line that is not indented. -/
def edgeLine (number : Nat) (chars : List Char) : Line := ⟨number, chars, 0, 0, 0⟩

/-- Characters that begin with no blank. -/
def AtEdge (chars : List Char) : Prop := ∀ c ∈ chars.head?, isIndent c = false

theorem lineOf_eq_edgeLine {chars : List Char} (h : AtEdge chars) (number : Nat) :
    lineOf number chars = edgeLine number chars := by
  have hnone : chars.takeWhile isIndent = [] := by
    cases chars with
    | nil => rfl
    | cons c cs => exact List.takeWhile_cons_of_neg (by simp [h c rfl])
  rw [lineOf, hnone]
  rfl

theorem isBlank_edgeLine (number : Nat) (chars : List Char) :
    (edgeLine number chars).isBlank = chars.isEmpty := rfl

theorem inside_edgeLine (number : Nat) (chars : List Char) :
    (edgeLine number chars).inside 0 = chars := by
  cases chars <;> rfl

/-- Lines that are not indented, in a row. -/
def edgeLines : (number : Nat) → List (List Char) → List Line
  | _, [] => []
  | n, cs :: rest => edgeLine n cs :: edgeLines (n + 1) rest

theorem indent_edgeLines {number : Nat} {css : List (List Char)} :
    ∀ l ∈ edgeLines number css, l.indent = 0 := by
  induction css generalizing number with
  | nil => exact fun _ h => absurd h List.not_mem_nil
  | cons cs css ih => exact List.forall_mem_cons.2 ⟨rfl, ih⟩

theorem length_edgeLines (number : Nat) (css : List (List Char)) :
    (edgeLines number css).length = css.length := by
  induction css generalizing number with
  | nil => rfl
  | cons cs css ih => rw [edgeLines, List.length_cons, List.length_cons, ih]

/-- The container of a whole document. -/
def outermost : Inside := ⟨0, none, 0⟩

/-! ## Containers -/

theorem readBlocks_blank (nested : Reader) (k : Inside) (fuel : Nat) {l : Line}
    (h : l.isBlank = true) (ls : List Line) :
    (readBlocks nested k (fuel + 1) (l :: ls)).1 = (readBlocks nested k (fuel + 1) ls).1 := by
  rw [readBlocks, readBlocks]
  dsimp only
  rw [List.takeWhile_cons_of_pos h, List.length_cons, List.drop_succ_cons]
  cases ls.drop (ls.takeWhile Line.isBlank).length with
  | nil => rfl
  | cons l' rest =>
    dsimp only
    rw [show (ls.takeWhile Line.isBlank).length + 1 + max 1 (readBlock nested k l' rest).2 =
      (ls.takeWhile Line.isBlank).length + max 1 (readBlock nested k l' rest).2 + 1 by omega,
      List.drop_succ_cons]
    split_ifs <;> rfl

/-- A block and those behind it. -/
theorem readBlocks_block (nested : Reader) {k : Inside} (fuel : Nat) {l : Line}
    (hblank : l.isBlank = false) (hindent : ¬ l.indent < k.indent) (hlevel : k.level < maxLevel)
    (rest : List Line) :
    readBlocks nested k (fuel + 1) (l :: rest) =
      ((readBlock nested k l rest).1 ++
        (readBlocks nested k fuel ((l :: rest).drop (max 1 (readBlock nested k l rest).2))).1,
      max 1 (readBlock nested k l rest).2 +
        (readBlocks nested k fuel ((l :: rest).drop (max 1 (readBlock nested k l rest).2))).2) := by
  rw [readBlocks]
  dsimp only
  rw [List.takeWhile_cons_of_neg (by simp [hblank]), List.length_nil, List.drop_zero]
  dsimp only
  rw [if_neg hindent, if_neg (Nat.not_le.2 hlevel), Nat.zero_add]

/-- A line to the left of a container ends it. -/
theorem readBlocks_outside (nested : Reader) {k : Inside} (fuel : Nat) {ls : List Line}
    (h : ∀ l ∈ (ls.dropWhile Line.isBlank).head?, l.indent < k.indent) :
    readBlocks nested k (fuel + 1) ls = ([], (ls.takeWhile Line.isBlank).length) := by
  rw [readBlocks]
  dsimp only
  rw [drop_length_takeWhile]
  cases hrest : ls.dropWhile Line.isBlank with
  | nil =>
    have hall : ls.takeWhile Line.isBlank = ls := by
      rw [← List.append_nil (ls.takeWhile Line.isBlank), ← hrest,
        List.takeWhile_append_dropWhile]
    rw [hall]
  | cons l rest =>
    rw [hrest] at h
    dsimp only
    rw [if_pos (h l rfl)]

/-! ## Lines that begin a text -/

/-- A character that begins no fence, quote, rule or item. -/
def beginsText (c : Char) : Bool :=
  !(isAsciiDigit c || c == '~' || c == '\x60' || c == '>' || c == '*' || c == '-' || c == '+' ||
    c == '_')

section

variable {k : Inside} {l : Line} {c : Char} {cs : List Char} {rest : List Line}

theorem marker?_of_beginsText (hc : beginsText c = true) (cs : List Char) :
    marker? (c :: cs) = none := by
  simp only [beginsText, Bool.not_eq_true', Bool.or_eq_false_iff] at hc
  obtain ⟨⟨⟨⟨⟨⟨⟨hdigit, -⟩, -⟩, -⟩, hstar⟩, hhyphen⟩, hplus⟩, -⟩ := hc
  unfold marker?
  simp only [List.takeWhile_cons_of_neg (show ¬ isAsciiDigit c = true by simp [hdigit]),
    List.length_nil, List.drop_zero, List.isEmpty_nil, hstar, hhyphen, hplus, Bool.or_false,
    Bool.false_eq_true, if_true, if_false, ite_self]

theorem interruptsList_eq_false (hbody : l.body = c :: cs) (htilde : c ≠ '~')
    (htick : c ≠ '\x60') (hquote : c ≠ '>') (hrule : isRule (c :: cs) = false) :
    interruptsList k l = false := by
  rw [interruptsList, hbody, hrule]
  simp [fence?, htilde, htick, hquote]

theorem interruptsList_of_beginsText (hbody : l.body = c :: cs) (hc : beginsText c = true) :
    interruptsList k l = false := by
  simp only [beginsText, Bool.not_eq_true', Bool.or_eq_false_iff, beq_eq_false_iff_ne] at hc
  obtain ⟨⟨⟨⟨⟨⟨⟨-, htilde⟩, htick⟩, hquote⟩, hstar⟩, hhyphen⟩, -⟩, hline⟩ := hc
  exact interruptsList_eq_false hbody htilde htick hquote
    (by simp [isRule, hstar, hhyphen, hline])

/-- What is read at a line that begins neither code nor a table, a quote or a rule. -/
theorem readBlock_of_not_interruptsList (nested : Reader) (h : interruptsList k l = false)
    (hcode : l.isCode k.indent = false) (htable : tableHead? k (l :: rest) = none) :
    readBlock nested k l rest =
      match itemAt? k false l with
      | some m =>
        ([.list m.number.isSome l.number (listItems nested k (rest.length + 2) m (l :: rest)).1],
          (listItems nested k (rest.length + 2) m (l :: rest)).2)
      | none => plainBlock k l rest := by
  simp only [interruptsList, hcode, Bool.not_false, Bool.true_and, Bool.or_eq_false_iff,
    Option.isSome_eq_false_iff, Option.isNone_iff_eq_none] at h
  obtain ⟨⟨hfence, hquote⟩, hrule⟩ := h
  have hquoted : l.quoted? = none := by
    unfold Line.quoted?
    split
    · rename_i heq
      rw [heq] at hquote
      cases hquote
    · rfl
  unfold readBlock
  rw [tableAt?, htable]
  cases itemAt? k false l <;>
    simp only [Option.map_none, hcode, Bool.false_eq_true, if_false, hfence, hquoted, hrule]

theorem readBlock_of_beginsText (nested : Reader) (hbody : l.body = c :: cs)
    (hc : beginsText c = true) (hcode : l.isCode k.indent = false)
    (htable : tableHead? k (l :: rest) = none) :
    readBlock nested k l rest = plainBlock k l rest := by
  have hitem : itemAt? k false l = none := by
    unfold itemAt?
    rw [hbody, marker?_of_beginsText hc]
    simp
  rw [readBlock_of_not_interruptsList nested (interruptsList_of_beginsText hbody hc) hcode htable,
    hitem]

/-- Without a bar, no table begins at a line. -/
theorem tableHead?_of_no_bar (h : '|' ∉ l.body) (rest : List Line) :
    tableHead? k (l :: rest) = none := by
  have hbar : (trim isBlank l.body).contains '|' = false := by
    refine Bool.eq_false_iff.2 fun hmem => h ?_
    exact List.Subset.trans (List.rdropWhile_prefix isBlank _).subset
      (List.dropWhile_sublist _).subset (List.contains_iff_mem.1 hmem)
  cases rest with
  | nil => rfl
  | cons next rest =>
    rw [tableHead?]
    dsimp only
    rw [hbar]
    simp

theorem tableHead?_of_blank {next : Line} (h : next.isBlank = true) (rest : List Line) :
    tableHead? k (l :: next :: rest) = none := by
  have hbody : next.body = [] := List.isEmpty_iff.1 h
  rw [tableHead?, hbody]
  dsimp only [columnCount?]
  split_ifs <;> rfl

/-! ## Blocks of one line -/

theorem definitionAt?_of_ne (hbody : l.body = c :: cs) (hc : c ≠ '[') :
    definitionAt? k l rest = none := by
  unfold definitionAt?
  rw [hbody, if_pos (by simpa using hc)]

theorem htmlStart?_of_ne (hc : c ≠ '<') : htmlStart? (c :: cs) = none := by
  unfold htmlStart?
  split
  · rename_i heq
    cases heq
    exact absurd rfl hc
  · rfl

theorem atx?_of_ne (hc : c ≠ '#') : atx? (c :: cs) = none := by
  unfold atx?
  rw [List.takeWhile_cons_of_neg (by simpa using hc)]
  rfl

/-- A comment that ends in its line is no block. -/
theorem readBlock_comment (nested : Reader) (hbody : l.body = '<' :: '!' :: '-' :: '-' :: cs)
    (hend : Text.contains l.body ['-', '-', '>'] = true) (hcode : l.isCode k.indent = false)
    (htable : tableHead? k (l :: rest) = none) :
    readBlock nested k l rest = ([], 1) := by
  have hstart : htmlStart? l.body = some .comment := by
    rw [hbody]
    rfl
  rw [readBlock_of_beginsText nested hbody rfl hcode htable, plainBlock,
    definitionAt?_of_ne hbody (by decide), hstart]
  dsimp only
  rw [HtmlStart.endsIn, hend]
  rfl

/-- A line with number signs is a heading. -/
theorem readBlock_heading (nested : Reader) (hbody : l.body = '#' :: cs) {level : Nat}
    {text : List Char} (hatx : atx? l.body = some (level, text)) (hcode : l.isCode k.indent = false)
    (htable : tableHead? k (l :: rest) = none) :
    readBlock nested k l rest =
      ([.heading level l.number (l.number + 1) (l.number + 1) text], 1) := by
  have hhtml : htmlStart? l.body = none := by
    rw [hbody]
    exact htmlStart?_of_ne (by decide)
  rw [readBlock_of_beginsText nested hbody rfl hcode htable, plainBlock,
    definitionAt?_of_ne hbody (by decide), hhtml]
  dsimp only
  rw [textBlock, hatx]

/-- The lines do not go on with a paragraph before them. -/
structure EndsText (k : Inside) (rest : List Line) : Prop where
  underline : underlined? k rest = none
  stop : continuation k true rest = []

/-- A line that begins neither a definition nor HTML or a heading is a paragraph, as long as the
next one does not go on with it. -/
theorem readBlock_paragraph (nested : Reader) (hbody : l.body = c :: cs)
    (hc : beginsText c = true) (hdefinition : c ≠ '[') (hhtml : c ≠ '<') (hheading : c ≠ '#')
    (hcode : l.isCode k.indent = false) (htable : tableHead? k (l :: rest) = none)
    (hrest : EndsText k rest) :
    readBlock nested k l rest =
      ([.paragraph l.number (l.number + 1) (joinedText k [l])], 1) := by
  rw [readBlock_of_beginsText nested hbody hc hcode htable, plainBlock,
    definitionAt?_of_ne hbody hdefinition, hbody, htmlStart?_of_ne hhtml]
  dsimp only
  rw [textBlock, hbody, atx?_of_ne hheading, hrest.underline, hrest.stop]
  rfl

theorem EndsText.nil : EndsText k [] := ⟨rfl, rfl⟩

theorem EndsText.of_blank (h : l.isBlank = true) : EndsText k (l :: rest) := by
  constructor
  · rw [underlined?, if_pos h]
  · rw [continuation, if_pos h]

/-- A line that interrupts paragraphs ends one. -/
theorem EndsText.of_interrupts (hblank : l.isBlank = false) (hcode : l.isCode k.indent = false)
    (hindent : 0 ≤ l.indent) (houtside : l.indent < k.indent)
    (h : interrupts k true l rest = true) : EndsText k (l :: rest) := by
  constructor
  · rw [underlined?]
    simp [hblank, hcode, hindent, houtside, h]
  · rw [continuation]
    simp [hblank, hcode, h, Int.not_lt.2 hindent]

end

/-! ## Whole documents -/

/-- The lines that are not blank. -/
def writtenLines (ls : List Line) : Nat := ls.countP fun l => !l.isBlank

/-- **The lines of a document are read as the blocks**, whatever stands before them. -/
def Reads (ls : List Line) (bs : List Block) : Prop :=
  ∀ fuel, writtenLines ls < fuel → (readBlocks (readNested maxLevel) outermost fuel ls).1 = bs

namespace Reads

variable {l : Line} {ls : List Line} {bs bs' : List Block}

theorem nil : Reads [] [] := by
  rintro (_ | fuel) _ <;> rfl

theorem blank_iff (h : l.isBlank = true) : Reads (l :: ls) bs ↔ Reads ls bs := by
  have hcount : writtenLines (l :: ls) = writtenLines ls :=
    List.countP_cons_of_neg (by simp [h])
  refine forall_congr' fun fuel => ?_
  rw [hcount]
  refine imp_congr_right fun hfuel => ?_
  obtain ⟨fuel, rfl⟩ : ∃ n, fuel = n + 1 := ⟨fuel - 1, by omega⟩
  rw [readBlocks_blank _ _ _ h]

theorem dropWhile_iff : Reads (ls.dropWhile Line.isBlank) bs ↔ Reads ls bs := by
  induction ls with
  | nil => exact Iff.rfl
  | cons l ls ih =>
    rw [List.dropWhile_cons]
    split_ifs with h
    · rw [blank_iff h, ih]
    · exact Iff.rfl

/-- **A block, and what is read behind it.** -/
theorem block {rest : List Line} {read : Nat} (hblank : l.isBlank = false) (hindent : 0 ≤ l.indent)
    (h : readBlock (readNested maxLevel) outermost l ls = (bs, read))
    (hrest : ls.drop (read - 1) = rest) (hbs : Reads rest bs') : Reads (l :: ls) (bs ++ bs') := by
  intro fuel hfuel
  obtain ⟨fuel, rfl⟩ : ∃ n, fuel = n + 1 := ⟨fuel - 1, by omega⟩
  have hdrop : (l :: ls).drop (max 1 read) = rest := by
    obtain ⟨n, hn⟩ : ∃ n, max 1 read = n + 1 := ⟨read - 1, by omega⟩
    rw [hn, List.drop_succ_cons, ← hrest]
    congr 1
    omega
  have hcount : writtenLines rest < fuel := by
    have hsub : writtenLines rest ≤ writtenLines ls :=
      (hrest ▸ List.drop_sublist _ ls).countP_le
    have hcons : writtenLines (l :: ls) = writtenLines ls + 1 :=
      List.countP_cons_of_pos (by simp [hblank])
    omega
  rw [readBlocks_block _ _ hblank (Int.not_lt.2 hindent) (by decide), h]
  dsimp only
  rw [hdrop, hbs fuel hcount]

end Reads

theorem writtenLines_le (ls : List Line) : writtenLines ls ≤ ls.length := List.countP_le_length

/-! ## Blocks in documents -/

namespace Reads

variable {number : Nat} {c : Char} {cs : List Char} {rest : List Line} {bs : List Block}

/-- A comment that ends in its line leaves nothing behind. -/
theorem comment (hend : Text.contains ('<' :: '!' :: '-' :: '-' :: cs) ['-', '-', '>'] = true)
    (hbar : '|' ∉ cs) (h : Reads rest bs) :
    Reads (edgeLine number ('<' :: '!' :: '-' :: '-' :: cs) :: rest) bs := by
  have hbody : '|' ∉ (edgeLine number ('<' :: '!' :: '-' :: '-' :: cs)).body := by
    simpa [edgeLine, Line.body] using hbar
  have hblock := readBlock_comment (readNested maxLevel) (k := outermost)
    (l := edgeLine number ('<' :: '!' :: '-' :: '-' :: cs)) rfl hend rfl
    (tableHead?_of_no_bar hbody rest)
  exact block rfl (Int.le_refl 0) hblock rfl h

/-- A paragraph of one line, with an empty line behind it. -/
theorem paragraph (hc : beginsText c = true) (hdefinition : c ≠ '[') (hhtml : c ≠ '<')
    (hheading : c ≠ '#') (htrim : trim isBlank (c :: cs) = c :: cs)
    (hblank : ∀ l ∈ rest.head?, l.isBlank = true) (h : Reads rest bs) :
    Reads (edgeLine number (c :: cs) :: rest)
      (.paragraph number (number + 1) (c :: cs) :: bs) := by
  have htable : tableHead? outermost (edgeLine number (c :: cs) :: rest) = none := by
    cases rest with
    | nil => rfl
    | cons l rest => exact tableHead?_of_blank (hblank l rfl) rest
  have hends : EndsText outermost rest := by
    cases rest with
    | nil => exact .nil
    | cons l rest => exact .of_blank (hblank l rfl)
  have hblock := readBlock_paragraph (readNested maxLevel) (l := edgeLine number (c :: cs)) rfl hc
    hdefinition hhtml hheading rfl htable hends
  have htext : joinedText outermost [edgeLine number (c :: cs)] = c :: cs := by
    rw [joinedText, List.map_singleton, outermost, inside_edgeLine, List.intercalate_singleton,
      htrim]
  rw [htext] at hblock
  exact block rfl (Int.le_refl 0) hblock rfl h

/-- A block of code between fences, with one line in it. -/
theorem fence {code : List Char} (hinfo : '\x60' ∉ cs) (hbar : '|' ∉ cs)
    (hcode : code.head? ≠ some '\x60') (h : Reads rest bs) :
    Reads (edgeLines number
        ['\x60' :: '\x60' :: '\x60' :: cs, code, ['\x60', '\x60', '\x60']] ++ rest)
      (.fence number cs :: bs) := by
  have hbody : '|' ∉ (edgeLine number ('\x60' :: '\x60' :: '\x60' :: cs)).body := by
    simpa [edgeLine, Line.body] using hbar
  have hnone : ∀ {ds : List Char}, ds.head? ≠ some '\x60' → ds.takeWhile (· == '\x60') = [] := by
    rintro (_ | ⟨d, ds⟩) hd
    · rfl
    · exact List.takeWhile_cons_of_neg (by simpa using hd)
  have hrun : ('\x60' :: '\x60' :: '\x60' :: cs).takeWhile (· == '\x60') =
      ['\x60', '\x60', '\x60'] := by
    have hcs : cs.takeWhile (· == '\x60') = [] :=
      hnone fun hhead => hinfo (List.mem_of_mem_head? hhead)
    simp [hcs]
  have hfence : fence? ('\x60' :: '\x60' :: '\x60' :: cs) = some ⟨'\x60', 3, cs⟩ := by
    unfold fence?
    simp [hrun, hinfo]
  have hlength : fenceLength outermost ⟨'\x60', 3, cs⟩
      (edgeLine (number + 1) code :: edgeLine (number + 1 + 1) ['\x60', '\x60', '\x60'] ::
        rest) = 2 := by
    have hopen : Fence.closedBy ⟨'\x60', 3, cs⟩ code = false := by
      simp [Fence.closedBy, hnone hcode]
    have hopen' : Fence.closedBy ⟨'\x60', 3, cs⟩ (edgeLine (number + 1) code).body = false := hopen
    rw [fenceLength, hopen', if_neg (by simp [edgeLine, outermost]), if_neg (by simp)]
    rfl
  have hblock : ∀ ls, fenceLength outermost ⟨'\x60', 3, cs⟩ ls = 2 →
      readBlock (readNested maxLevel) outermost
        (edgeLine number ('\x60' :: '\x60' :: '\x60' :: cs)) ls = ([.fence number cs], 3) := by
    intro ls hls
    have hcode : (edgeLine number ('\x60' :: '\x60' :: '\x60' :: cs)).isCode outermost.indent =
      false := rfl
    have hfence' : fence? (edgeLine number ('\x60' :: '\x60' :: '\x60' :: cs)).body = _ := hfence
    rw [readBlock, tableAt?, tableHead?_of_no_bar hbody, hcode, hfence']
    dsimp only [Option.map_none]
    rw [if_neg Bool.false_ne_true, hls]
    rfl
  exact block rfl (Int.le_refl 0) (hblock _ hlength) rfl h

end Reads

/-! ## Headings -/

/-- A text that can stand behind the number signs of a heading. -/
structure HeadingText (text : List Char) : Prop where
  some : text ≠ []
  trimmed : trim isBlank text = text
  last : ∀ c ∈ text.getLast?, c ≠ '#'

theorem isBlank_of_isIndent {c : Char} (h : isIndent c = true) : Outline.isBlank c = true := by
  simp only [isIndent, Bool.or_eq_true, beq_iff_eq] at h
  rcases h with rfl | rfl <;> decide

theorem trim_blank_cons {c : Char} (h : Outline.isBlank c = true) (cs : List Char) :
    trim Outline.isBlank (c :: cs) = trim Outline.isBlank cs := by
  rw [trim, trimLeft, List.dropWhile_cons_of_pos h]
  rfl

/-- **A heading reads as its level and its text.** -/
theorem atx?_written {level : Nat} (hpos : 1 ≤ level) (hmax : level ≤ 6) {text : List Char}
    (h : HeadingText text) :
    atx? (List.replicate level '#' ++ ' ' :: text) = some (level, text) := by
  have hsigns : (List.replicate level '#' ++ ' ' :: text).takeWhile (· == '#') =
      List.replicate level '#' := by
    rw [List.takeWhile_append_of_pos fun c hc => by
      rw [List.eq_of_mem_replicate hc]; rfl]
    simp
  have hends := (trim_eq_self_iff.1 h.trimmed).2
  have hlast : (' ' :: text).getLast? = text.getLast? := by
    cases text with
    | nil => exact absurd rfl h.some
    | cons c cs => rfl
  have hclosing : withoutClosing (' ' :: text) = ' ' :: text := by
    have hindent : trimRight isIndent (' ' :: text) = ' ' :: text := by
      refine trimRight_eq_self_iff.2 fun c hc => ?_
      rw [hlast] at hc
      have hblank := hends c hc
      exact Bool.eq_false_iff.2 fun hindent =>
        absurd (isBlank_of_isIndent hindent) (by rw [hblank]; decide)
    have hsign : trimRight (· == '#') (' ' :: text) = ' ' :: text := by
      refine trimRight_eq_self_iff.2 fun c hc => ?_
      rw [hlast] at hc
      simpa using h.last c hc
    rw [withoutClosing, hindent, hsign, ite_self]
  have hrest : (List.replicate level '#' ++ ' ' :: text).drop level = ' ' :: text :=
    List.drop_left' (List.length_replicate ..)
  unfold atx?
  dsimp only
  rw [hsigns, List.length_replicate, hrest, hclosing, trim_blank_cons rfl, h.trimmed]
  simp [hpos, hmax, endsMarker, isIndent]

theorem Reads.heading {level : Nat} (hpos : 1 ≤ level) (hmax : level ≤ 6) {text : List Char}
    (h : HeadingText text) (hbar : '|' ∉ text) {number : Nat} {rest : List Line} {bs : List Block}
    (hrest : Reads rest bs) :
    Reads (edgeLine number (List.replicate level '#' ++ ' ' :: text) :: rest)
      (.heading level number (number + 1) (number + 1) text :: bs) := by
  obtain ⟨n, rfl⟩ : ∃ n, level = n + 1 := ⟨level - 1, by omega⟩
  have hatx := atx?_written hpos hmax h
  have hbody : '|' ∉ (edgeLine number (List.replicate (n + 1) '#' ++ ' ' :: text)).body := by
    intro hmem
    rcases List.mem_append.1 hmem with hmem | hmem
    · exact absurd (List.eq_of_mem_replicate hmem) (by decide)
    · exact (List.mem_cons.1 hmem).elim (by decide) hbar
  have hblock := readBlock_heading (readNested maxLevel) (k := outermost)
    (l := edgeLine number (List.replicate (n + 1) '#' ++ ' ' :: text)) rfl hatx rfl
    (tableHead?_of_no_bar hbody rest)
  exact Reads.block rfl (Int.le_refl 0) hblock rfl hrest

/-! ## All blocks -/

/-- The blocks of a document are those that its lines are read as. -/
theorem Reads.blocksOf_eq {text : List Char} {bs : List Block} (h : Reads (documentLines text) bs) :
    blocksOf text = bs :=
  h _ (Nat.lt_succ_of_le (writtenLines_le _))

end Outline.Markdown

import Outline.Proofs.Markdown.Items
import Outline.Proofs.Markdown.Plain
import Outline.Proofs.Markdown.Rows
import Outline.Template.Part

/-!
# Reading placeholders

**Each placeholder of a template is read as one block** (`Placeholder.reads`), as long as an empty
line stands behind it, and behind a list something that is no item.

* `IsWord`, `PlainText`: texts in which nothing has a meaning of its own;
* `Placeholder.block`: the block that a placeholder is read as;
* `Placeholder.Legible`: placeholders that can be read back;
* `TextLine`: a line that is not indented and has no control characters.
-/

namespace Outline

open Markdown

/-! ## Plain texts -/

/-- Letters and digits of ASCII. -/
def IsWord (cs : List Char) : Prop := ∀ c ∈ cs, isAsciiAlnum c = true

/-- Letters, digits and spaces, with no space at the ends. -/
structure PlainText (cs : List Char) : Prop where
  chars : ∀ c ∈ cs, isAsciiAlnum c = true ∨ c = ' '
  trimmed : trim isBlank cs = cs

theorem isAsciiAlnum_iff {c : Char} : isAsciiAlnum c = true ↔
    (48 ≤ c.toNat ∧ c.toNat ≤ 57) ∨ (65 ≤ c.toNat ∧ c.toNat ≤ 90) ∨
      (97 ≤ c.toNat ∧ c.toNat ≤ 122) := by
  simp only [isAsciiAlnum, isAsciiLetter, Bool.or_eq_true, Bool.and_eq_true, decide_eq_true_eq]
  omega

theorem isBlank_of_isAsciiAlnum {c : Char} (h : isAsciiAlnum c = true) : isBlank c = false := by
  have hrange := isAsciiAlnum_iff.1 h
  unfold isBlank
  simp only [Bool.or_eq_false_iff, Bool.and_eq_false_iff, decide_eq_false_iff_not,
    beq_eq_false_iff_ne]
  omega

theorem IsWord.plainText {cs : List Char} (h : IsWord cs) : PlainText cs where
  chars c hc := Or.inl (h c hc)
  trimmed := trim_eq_self_iff.2
    ⟨fun c hc => isBlank_of_isAsciiAlnum (h c (List.mem_of_mem_head? hc)),
      fun c hc => isBlank_of_isAsciiAlnum (h c (List.mem_of_mem_getLast? hc))⟩

namespace PlainText

variable {cs : List Char}

/-- A character that is neither a letter nor a digit, nor a space, does not occur. -/
theorem ne_of_mem (h : PlainText cs) {c d : Char} (hc : c ∈ cs) (hd : isAsciiAlnum d = false)
    (hspace : d ≠ ' ') : c ≠ d := by
  rintro rfl
  rcases h.chars c hc with halnum | rfl
  · rw [hd] at halnum
    cases halnum
  · exact hspace rfl

theorem isSpecial_eq_false (h : PlainText cs) : ∀ c ∈ cs, isSpecial c = false := fun c hc =>
  isSpecial_eq_false_iff.2
    ⟨h.ne_of_mem hc rfl (by decide), h.ne_of_mem hc rfl (by decide), h.ne_of_mem hc rfl (by decide),
      h.ne_of_mem hc rfl (by decide), h.ne_of_mem hc rfl (by decide),
      h.ne_of_mem hc rfl (by decide), h.ne_of_mem hc rfl (by decide),
      h.ne_of_mem hc rfl (by decide), h.ne_of_mem hc rfl (by decide),
      h.ne_of_mem hc rfl (by decide)⟩

theorem cellText (h : PlainText cs) : CellText cs where
  chars c hc := ⟨h.ne_of_mem hc rfl (by decide), h.ne_of_mem hc rfl (by decide)⟩
  trimmed := h.trimmed

theorem headingText (h : PlainText cs) (hsome : cs ≠ []) : HeadingText cs where
  some := hsome
  trimmed := h.trimmed
  last c hc := h.ne_of_mem (List.mem_of_mem_getLast? hc) rfl (by decide)

theorem bar (h : PlainText cs) : '|' ∉ cs := fun hc => h.ne_of_mem hc rfl (by decide) rfl

end PlainText

/-! ## Placeholders -/

namespace Placeholder

/-- The address of the image that stands for one of a format. -/
def imagePath (format : String) : String := "path/to/image." ++ format

/-- The block that a placeholder is read as. -/
def block (number : Nat) : Placeholder → Block
  | .text => .paragraph number (number + 1) "TODO: Add content for this section.".toList
  | .code lang => .fence number (if lang.isEmpty then "text" else lang).toList
  | .image format => .paragraph number (number + 1)
      (writtenImage "TODO: Add alt text".toList (imagePath format).toList)
  | .table headers =>
    .table number (headers.map String.toList) [(number + 2, headers.map fun _ => "TODO".toList)]
  | .list ordered items => .list ordered number
      ((List.range' number items).map fun n => [.paragraph n (n + 1) "TODO: Add list item".toList])

/-- **A placeholder that can be read back.** A list needs items, and the number of an item has no
more than nine digits. -/
def Legible : Placeholder → Prop
  | .text => True
  | .code lang => IsWord lang.toList
  | .image format => IsWord format.toList
  | .table headers => headers ≠ [] ∧ ∀ h ∈ headers, PlainText h.toList
  | .list ordered items => 0 < items ∧ (ordered = true → items ≤ 999999999)

/-- The lines of a placeholder as characters. -/
def charLines (p : Placeholder) : List (List Char) := p.lines.map String.toList

end Placeholder

/-! ## Items -/

theorem isAsciiDigit_of_mem_digits {n : Nat} {c : Char} (h : c ∈ (toString n).toList) :
    isAsciiDigit c = true := by
  rw [show toString n = n.repr from rfl, Nat.toList_repr] at h
  have hdigit := Nat.isDigit_of_mem_toDigits (by decide) (by decide) h
  simp only [Char.isDigit, Bool.and_eq_true, decide_eq_true_eq, ge_iff_le, UInt32.le_iff_toNat_le]
    at hdigit
  simp only [isAsciiDigit, Bool.and_eq_true, decide_eq_true_eq]
  exact hdigit

theorem isIndent_of_isAsciiDigit {c : Char} (h : isAsciiDigit c = true) : isIndent c = false := by
  refine Bool.eq_false_iff.2 fun hindent => ?_
  simp only [isIndent, Bool.or_eq_true, beq_iff_eq] at hindent
  rcases hindent with rfl | rfl <;> cases h

theorem digits_ne_nil (n : Nat) : (toString n).toList ≠ [] := by
  rw [show toString n = n.repr from rfl, Nat.toList_repr]
  exact Nat.toDigits_ne_nil

theorem length_digits_le {n : Nat} (h : n ≤ 999999999) : (toString n).toList.length ≤ 9 := by
  rw [show toString n = n.repr from rfl, Nat.toList_repr,
    Nat.length_toDigits_le_iff (by decide) (by decide)]
  omega

theorem itemSign_bullet : ItemSign ['-'] ⟨none, '-', 1⟩ where
  marker _ := rfl
  width := rfl
  indent := by decide
  opens number text htext := by
    obtain ⟨c, cs, rfl, hc, -, -, -, hindent⟩ := htext.start
    have hhyphen : c ≠ '-' := by
      rintro rfl
      cases hc
    exact interruptsList_eq_false rfl (by decide) (by decide) (by decide)
      (by simp [isRule, hhyphen, hindent])
  bar := by decide

/-- The sign before an item with a number of at most nine digits. -/
theorem itemSign_number {n : Nat} (h : n ≤ 999999999) :
    ItemSign ((toString n).toList ++ ['.'])
      ⟨some (natOfDigits (toString n).toList), '.', (toString n).toList.length + 1⟩ where
  marker text := by
    have hdigits : ((toString n).toList ++ ['.'] ++ ' ' :: text).takeWhile isAsciiDigit =
        (toString n).toList := by
      rw [List.append_assoc,
        List.takeWhile_append_of_pos fun c hc => isAsciiDigit_of_mem_digits hc]
      exact List.append_nil _
    have hrest : ((toString n).toList ++ ['.'] ++ ' ' :: text).drop (toString n).toList.length =
        '.' :: ' ' :: text := by
      rw [List.append_assoc]
      exact List.drop_left
    unfold marker?
    dsimp only
    rw [hdigits, hrest]
    dsimp only
    rw [if_neg (by simp [endsMarker, isIndent]), if_neg (by simp),
      if_pos (by simpa using length_digits_le h)]
  width := by rw [List.length_append]; rfl
  indent c hc := by
    rcases List.mem_append.1 hc with hc | hc
    · exact isIndent_of_isAsciiDigit (isAsciiDigit_of_mem_digits hc)
    · rw [List.mem_singleton.1 hc]
      decide
  opens number text _ := by
    obtain ⟨d, ds, hds⟩ := List.exists_cons_of_ne_nil (digits_ne_nil n)
    have hd : isAsciiDigit d = true :=
      isAsciiDigit_of_mem_digits (hds ▸ List.mem_cons_self)
    have hne : ∀ c, isAsciiDigit c = false → d ≠ c := by
      rintro c hc rfl
      rw [hd] at hc
      cases hc
    rw [hds]
    exact interruptsList_eq_false rfl (hne _ (by decide)) (hne _ (by decide)) (hne _ (by decide))
      (by simp [isRule, hne '*' (by decide), hne '-' (by decide), hne '_' (by decide)])
  bar := by
    intro hmem
    rcases List.mem_append.1 hmem with hmem | hmem
    · cases isAsciiDigit_of_mem_digits hmem
    · exact absurd hmem (by decide)

theorem itemText_todo : ItemText "TODO: Add list item".toList where
  start := ⟨'T', "ODO: Add list item".toList, rfl, by decide, by decide, by decide, by decide,
    by decide⟩
  trimmed := by decide
  bar := by decide

/-! ## Lines of placeholders -/

namespace Placeholder

theorem barRow_eq_intercalate {row : List (List Char)} (h : row ≠ []) :
    '|' :: ' ' :: ([' ', '|', ' '].intercalate row ++ [' ', '|']) = barRow row := by
  induction row with
  | nil => exact absurd rfl h
  | cons cell row ih =>
    cases row with
    | nil => simp [barRow]
    | cons cell' row =>
      have hrow := ih (List.cons_ne_nil _ _)
      rw [barRow, List.cons.injEq] at hrow
      rw [List.intercalate_cons_cons, barRow, List.flatMap_cons, ← hrow.2]
      simp

theorem toList_tableRow {row : List String} (h : row ≠ []) :
    (tableRow row).toList = barRow (row.map String.toList) := by
  rw [← barRow_eq_intercalate (by simpa using h), tableRow, String.toList_append,
    String.toList_append, String.toList_intercalate]
  rfl

theorem toList_tableRuler (columns : Nat) : (tableRuler columns).toList = barRuler columns := by
  rw [tableRuler, String.toList_append, String.toList_join, List.flatMap_def, List.map_replicate]
  rfl

theorem charLines_table {headers : List String} (h : headers ≠ []) :
    (Placeholder.table headers).charLines =
      [barRow (headers.map String.toList), barRuler (headers.map String.toList).length,
        barRow (headers.map fun _ => "TODO".toList)] := by
  have hrow : (tableRow (headers.map fun _ => "TODO")).toList =
      barRow (headers.map fun _ => "TODO".toList) := by
    rw [toList_tableRow (by simpa using h), List.map_map]
    rfl
  rw [charLines, lines, tableLines, List.map_cons, List.map_cons, List.map_singleton,
    toList_tableRow h, toList_tableRuler, hrow, List.length_map]

/-- The sign before an item as characters. -/
def sign (ordered : Bool) (n : Nat) : List Char := (marker ordered n).toList

/-- The sign before an item as it is read. -/
def mark (ordered : Bool) (n : Nat) : Marker :=
  if ordered then ⟨some (natOfDigits (toString n).toList), '.', (toString n).toList.length + 1⟩
  else ⟨none, '-', 1⟩

theorem itemSign {ordered : Bool} {n : Nat} (h : ordered = true → n ≤ 999999999) :
    ItemSign (sign ordered n) (mark ordered n) := by
  cases ordered with
  | false =>
    have hsign : sign false n = ['-'] := by simp [sign, marker]
    rw [hsign]
    exact itemSign_bullet
  | true =>
    have hsign : sign true n = (toString n).toList ++ ['.'] := String.toList_append
    rw [hsign]
    exact itemSign_number (h rfl)

theorem continues_mark (ordered : Bool) (n m : Nat) :
    (mark ordered n).continues (mark ordered m) = true := by
  cases ordered <;> rfl

theorem charLines_list (ordered : Bool) (items : Nat) :
    (Placeholder.list ordered items).charLines =
      itemLines (sign ordered) "TODO: Add list item".toList 1 items := by
  rw [charLines, lines, listLines, itemLines, List.map_map]
  refine List.map_congr_left fun n _ => ?_
  exact String.toList_append

theorem charLines_code (lang : String) :
    (Placeholder.code lang).charLines =
      ['\x60' :: '\x60' :: '\x60' :: (if lang.isEmpty then "text" else lang).toList,
        "TODO: Add your code here".toList, ['\x60', '\x60', '\x60']] := by
  rw [charLines, lines, codeLines, List.map_cons, String.toList_append]
  rfl

theorem plainAddress_imagePath {format : String} (h : IsWord format.toList) :
    PlainAddress (imagePath format).toList where
  chars c hc := by
    rw [imagePath, String.toList_append] at hc
    rcases List.mem_append.1 hc with hc | hc
    · have hprefix : ∀ c ∈ "path/to/image.".toList, isPathChar c = true := by decide
      exact hprefix c hc
    · rw [isPathChar, h c hc]
      rfl
  start := ⟨'p', by rw [imagePath, String.toList_append]; rfl, rfl⟩

theorem getLast?_writtenImage (alt path : List Char) :
    (writtenImage alt path).getLast? = some ')' := by
  have hconcat : writtenImage alt path = '!' :: '[' :: (alt ++ ']' :: '(' :: path) ++ [')'] := by
    simp [writtenImage]
  rw [hconcat, List.getLast?_concat]

theorem charLines_image (format : String) :
    (Placeholder.image format).charLines =
      [writtenImage "TODO: Add alt text".toList (imagePath format).toList] := by
  rw [charLines, lines, List.map_singleton, String.toList_append, String.toList_append,
    imagePath, String.toList_append]
  rfl

/-- The lines behind a placeholder do not go on with it. -/
structure EndsBefore (p : Placeholder) (rest : List Line) : Prop where
  blank : ∀ l ∈ rest.head?, l.isBlank = true
  list : ∀ ordered items, p = .list ordered items → EndsList rest

/-- **A placeholder is read as one block.** -/
theorem reads {p : Placeholder} (h : p.Legible) {number : Nat} {rest : List Line}
    {bs : List Block} (hends : p.EndsBefore rest) (hrest : Reads rest bs) :
    Reads (edgeLines number p.charLines ++ rest) (p.block number :: bs) := by
  cases p with
  | text =>
    exact Reads.paragraph (c := 'T') (by decide) (by decide) (by decide) (by decide) (by decide)
      hends.blank hrest
  | code lang =>
    have hinfo : IsWord (if lang.isEmpty then "text" else lang).toList := by
      split_ifs
      · intro c hc
        revert c
        decide
      · exact h
    rw [charLines_code]
    refine Reads.fence (fun hc => ?_) (fun hc => ?_) (by decide) hrest
    · cases hinfo _ hc
    · cases hinfo _ hc
  | image format =>
    have hpath := plainAddress_imagePath h
    have htrim : trim isBlank (writtenImage "TODO: Add alt text".toList (imagePath format).toList) =
        writtenImage "TODO: Add alt text".toList (imagePath format).toList := by
      refine trim_eq_self_iff.2 ⟨fun c hc => ?_, fun c hc => ?_⟩
      · rw [← Option.mem_some.1 hc]
        decide
      · rw [getLast?_writtenImage] at hc
        rw [← Option.mem_some.1 hc]
        decide
    rw [charLines_image]
    exact Reads.paragraph (c := '!') (by decide) (by decide) (by decide) (by decide) htrim
      hends.blank hrest
  | table headers =>
    obtain ⟨hsome, hplain⟩ := h
    rw [charLines_table hsome]
    refine Reads.table (by simpa using hsome) ?_ ?_ (by simp) hends.blank hrest
    · rw [List.forall_mem_map]
      exact fun header hheader => (hplain header hheader).cellText
    · rw [List.forall_mem_map]
      exact fun _ _ => ⟨by decide, by decide⟩
  | list ordered items =>
    obtain ⟨hpos, hmax⟩ := h
    obtain ⟨count, rfl⟩ : ∃ n, items = n + 1 := ⟨items - 1, by omega⟩
    have hsigns : ∀ j < 1 + count + 1, ItemSign (sign ordered j) (mark ordered j) := fun j hj =>
      itemSign fun hordered => by
        have := hmax hordered
        omega
    have hordered : (mark ordered 1).number.isSome = ordered := by
      cases ordered <;> rfl
    have hreads : Reads (edgeLines number (itemLines (sign ordered) _ 1 (count + 1)) ++ rest) _ :=
      Reads.list (continues_mark ordered) itemText_todo (hends.list ordered _ rfl) count hsigns
        hrest
    rw [hordered] at hreads
    rw [charLines_list]
    exact hreads

end Placeholder

/-! ## Characters of placeholders -/

/-- A line that is not indented, without control characters. -/
structure TextLine (cs : List Char) : Prop where
  edge : AtEdge cs
  written : ∀ c ∈ cs, 32 ≤ c.toNat

theorem TextLine.cons {c : Char} {cs : List Char} (hc : isIndent c = false) (hcode : 32 ≤ c.toNat)
    (hcs : ∀ c ∈ cs, 32 ≤ c.toNat) : TextLine (c :: cs) where
  edge d hd := by
    rw [← Option.mem_some.1 hd]
    exact hc
  written := List.forall_mem_cons.2 ⟨hcode, hcs⟩

theorem IsWord.written {cs : List Char} (h : IsWord cs) : ∀ c ∈ cs, 32 ≤ c.toNat := fun c hc => by
  have := isAsciiAlnum_iff.1 (h c hc)
  omega

theorem PlainText.written {cs : List Char} (h : PlainText cs) : ∀ c ∈ cs, 32 ≤ c.toNat :=
  fun c hc => by
    rcases h.chars c hc with halnum | rfl
    · have := isAsciiAlnum_iff.1 halnum
      omega
    · decide

theorem textLine_barRow {row : List (List Char)} (h : ∀ cell ∈ row, PlainText cell) :
    TextLine (barRow row) := by
  refine .cons (by decide) (by decide) fun c hc => ?_
  obtain ⟨cell, hcell, hc⟩ := List.mem_flatMap.1 hc
  simp only [List.mem_cons, List.mem_append, List.not_mem_nil, or_false] at hc
  rcases hc with rfl | hc | rfl | rfl
  · decide
  · exact (h cell hcell).written c hc
  · decide
  · decide

theorem textLine_barRuler (columns : Nat) : TextLine (barRuler columns) := by
  refine .cons (by decide) (by decide) fun c hc => ?_
  obtain ⟨l, hl, hc⟩ := List.mem_flatten.1 hc
  have hruler : ∀ c ∈ ['-', '-', '-', '|'], 32 ≤ c.toNat := by decide
  exact hruler c (List.eq_of_mem_replicate hl ▸ hc)

theorem textLine_sign (ordered : Bool) (n : Nat) {text : List Char}
    (htext : ∀ c ∈ text, 32 ≤ c.toNat) : TextLine (Placeholder.sign ordered n ++ ' ' :: text) := by
  have hsign : ∀ c ∈ Placeholder.sign ordered n, isIndent c = false ∧ 32 ≤ c.toNat := by
    intro c hc
    cases ordered with
    | false =>
      have hbullet : Placeholder.sign false n = ['-'] := by
        simp [Placeholder.sign, Placeholder.marker]
      rw [hbullet, List.mem_singleton] at hc
      rw [hc]
      decide
    | true =>
      have hnumber : Placeholder.sign true n = (toString n).toList ++ ['.'] :=
        String.toList_append
      rw [hnumber] at hc
      rcases List.mem_append.1 hc with hc | hc
      · have hdigit := isAsciiDigit_of_mem_digits hc
        refine ⟨isIndent_of_isAsciiDigit hdigit, ?_⟩
        simp only [isAsciiDigit, Bool.and_eq_true, decide_eq_true_eq] at hdigit
        omega
      · rw [List.mem_singleton.1 hc]
        decide
  have hsome : Placeholder.sign ordered n ≠ [] := by
    cases ordered <;> simp [Placeholder.sign, Placeholder.marker]
  obtain ⟨c, cs, hcons⟩ := List.exists_cons_of_ne_nil hsome
  rw [hcons] at hsign ⊢
  obtain ⟨hc, hcs⟩ := List.forall_mem_cons.1 hsign
  refine .cons hc.1 hc.2 fun d hd => ?_
  rcases List.mem_append.1 hd with hd | hd
  · exact (hcs d hd).2
  · rcases List.mem_cons.1 hd with rfl | hd
    · decide
    · exact htext d hd

/-- **The lines of a placeholder are lines of text.** -/
theorem Placeholder.textLine_charLines {p : Placeholder} (h : p.Legible) :
    ∀ cs ∈ p.charLines, TextLine cs := by
  cases p with
  | text =>
    refine List.forall_mem_singleton.2 (.cons (c := 'T') (by decide) (by decide) (by decide))
  | code lang =>
    have hinfo : ∀ c ∈ (if lang.isEmpty then "text" else lang).toList, 32 ≤ c.toNat := by
      split_ifs
      · decide
      · exact IsWord.written h
    rw [charLines_code, List.forall_mem_cons, List.forall_mem_cons, List.forall_mem_singleton]
    refine ⟨.cons (by decide) (by decide) ?_, .cons (c := 'T') (by decide) (by decide) (by decide),
      .cons (by decide) (by decide) (by decide)⟩
    exact List.forall_mem_cons.2 ⟨by decide, List.forall_mem_cons.2 ⟨by decide, hinfo⟩⟩
  | image format =>
    rw [charLines_image, List.forall_mem_singleton]
    refine .cons (by decide) (by decide) fun c hc => ?_
    have halt : ∀ c ∈ "TODO: Add alt text".toList, 32 ≤ c.toNat := by decide
    simp only [List.mem_cons, List.mem_append, List.not_mem_nil, or_false] at hc
    rcases hc with rfl | hc | rfl | rfl | hc | rfl
    · decide
    · exact halt c hc
    · decide
    · decide
    · have := isPathChar_iff.1 ((plainAddress_imagePath h).chars c hc)
      omega
    · decide
  | table headers =>
    obtain ⟨hsome, hplain⟩ := h
    rw [charLines_table hsome, List.forall_mem_cons, List.forall_mem_cons,
      List.forall_mem_singleton]
    refine ⟨textLine_barRow ?_, textLine_barRuler _, textLine_barRow ?_⟩
    · exact List.forall_mem_map.2 hplain
    · exact List.forall_mem_map.2 fun _ _ => ⟨by decide, by decide⟩
  | list ordered items =>
    rw [charLines_list]
    exact List.forall_mem_map.2 fun n _ => textLine_sign ordered n (by decide)

end Outline

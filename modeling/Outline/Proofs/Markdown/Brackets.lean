import Outline.Proofs.Markdown.Numbers

/-!
# Lines and cells keep their brackets

Markers, indentation and bars are lost when lines are seen inside containers and rows are cut into
cells, but no opening bracket is (`LinesFrom.joinedText`, `bracketsIn_cells`).

* `bracketsIn`, `bracketsBefore`: numbers of brackets;
* `Line.Bracketed`: a line that has kept its brackets;
* `LinesFrom`: lines of a document, each with its brackets;
* `bracketPlaces`: the places of all brackets.
-/

namespace Outline

namespace Markdown

/-! ## Counting -/

/-- The number of opening brackets in texts. -/
def bracketsIn (texts : List (List Char)) : Nat := (texts.map (List.count '[')).sum

@[simp] theorem bracketsIn_nil : bracketsIn [] = 0 := rfl

@[simp] theorem bracketsIn_cons (cs : List Char) (texts : List (List Char)) :
    bracketsIn (cs :: texts) = cs.count '[' + bracketsIn texts := rfl

@[simp] theorem bracketsIn_append (texts texts' : List (List Char)) :
    bracketsIn (texts ++ texts') = bracketsIn texts + bracketsIn texts' := by
  rw [bracketsIn, List.map_append, List.sum_append]
  rfl

theorem bracketsIn_take_le (texts : List (List Char)) (n : Nat) :
    bracketsIn (texts.take n) ≤ bracketsIn texts := by
  conv_rhs => rw [← List.take_append_drop n texts, bracketsIn_append]
  exact Nat.le_add_right _ _

/-- The number of opening brackets in the lines before the line `n`. -/
def bracketsBefore (pieces : List (List Char)) (n : Nat) : Nat := bracketsIn (pieces.take n)

theorem bracketsBefore_mono (pieces : List (List Char)) : Monotone (bracketsBefore pieces) := by
  intro n m hle
  obtain ⟨more, hmore⟩ := List.take_prefix_take_left hle (l := pieces)
  rw [bracketsBefore, bracketsBefore, ← hmore, bracketsIn_append]
  exact Nat.le_add_right _ _

theorem count_drop {c : Char} {cs : List Char} {n : Nat} (h : c ∉ cs.take n) :
    (cs.drop n).count c = cs.count c := by
  conv_rhs => rw [← List.take_append_drop n cs, List.count_append, List.count_eq_zero.2 h,
    Nat.zero_add]

section

variable {p : Char → Bool} {c : Char} (hp : p c = false)

include hp

theorem not_mem_front (cs : List Char) : c ∉ cs.take (cs.takeWhile p).length := by
  rw [← List.prefix_iff_eq_take.1 (List.takeWhile_prefix p)]
  intro h
  have hc := List.mem_takeWhile_imp h
  rw [hp] at hc
  cases hc

theorem count_dropWhile (cs : List Char) : (cs.dropWhile p).count c = cs.count c := by
  have hdrop : (cs.takeWhile p ++ cs.dropWhile p).drop (cs.takeWhile p).length = cs.dropWhile p :=
    List.drop_left
  rw [List.takeWhile_append_dropWhile] at hdrop
  rw [← hdrop, count_drop (not_mem_front hp cs)]

/-- What is trimmed away has no character that is kept. -/
theorem count_trimRight (cs : List Char) : (trimRight p cs).count c = cs.count c := by
  rw [trimRight, List.count_reverse, count_dropWhile hp, List.count_reverse]

theorem count_trim (cs : List Char) : (trim p cs).count c = cs.count c := by
  rw [trim, count_trimRight hp, trimLeft, count_dropWhile hp]

end

theorem count_intercalate (texts : List (List Char)) :
    (['\n'].intercalate texts).count '[' = bracketsIn texts := by
  induction texts with
  | nil => rfl
  | cons cs texts ih =>
    cases texts with
    | nil => simp
    | cons cs' texts => simp_all [List.intercalate_cons_cons]

/-- A character in front of the first of some texts. -/
theorem bracketsIn_cons_cons (c : Char) (cs : List Char) (rest : List (List Char)) :
    bracketsIn ((c :: cs) :: rest) = bracketsIn (cs :: rest) + if c == '[' then 1 else 0 := by
  rw [bracketsIn_cons, bracketsIn_cons, List.count_cons, Nat.add_right_comm]

/-- Cutting a text into lines loses no brackets. -/
theorem bracketsIn_cutOn (cs : List Char) : bracketsIn (cutOn '\n' cs) = cs.count '[' := by
  unfold cutOn
  induction cs with
  | nil => rfl
  | cons c cs ih =>
    rw [cut, List.count_cons, ← ih]
    by_cases hfeed : c = '\n'
    · subst hfeed
      exact Nat.zero_add _
    · rw [if_neg (by simpa using hfeed)]
      cases cut (· == '\n') cs with
      | nil => exact List.count_cons
      | cons piece pieces => exact bracketsIn_cons_cons c piece pieces

/-- Nor does replacing line ends. -/
theorem count_normalized (cs : List Char) : (normalized cs).count '[' = cs.count '[' := by
  fun_induction normalized cs with
  | case1 => rfl
  | case2 cs ih => simpa using ih
  | case3 c cs hnot ih =>
    rw [List.count_cons, List.count_cons, ih]
    by_cases hreturn : c = '\r'
    · subst hreturn
      rfl
    by_cases hzero : c = '\x00'
    · subst hzero
      rfl
    · simp only [beq_iff_eq, hreturn, hzero, if_false]

theorem count_withoutClosing (cs : List Char) : (withoutClosing cs).count '[' = cs.count '[' := by
  unfold withoutClosing
  dsimp only
  split_ifs
  · rw [count_trimRight (by decide), count_trimRight (by decide)]
  · exact count_trimRight (by decide) cs

/-- The number signs around the text of a heading are no brackets. -/
theorem count_atx? {body text : List Char} {level : Nat} (h : atx? body = some (level, text)) :
    text.count '[' = body.count '[' := by
  unfold atx? at h
  dsimp only at h
  split_ifs at h
  cases h
  rw [count_trim (by decide), count_withoutClosing, count_drop (not_mem_front (by decide) body)]

/-! ## Lines -/

/-- **A line that has kept its brackets**: they are those of the line with its number, and none
stands before its body. -/
structure Line.Bracketed (pieces : List (List Char)) (l : Line) : Prop where
  count : bracketsBefore pieces (l.number + 1) =
    bracketsBefore pieces l.number + l.chars.count '['
  plain : '[' ∉ l.chars.take l.shift

variable {pieces : List (List Char)} {k : Inside} {l : Line} {ls rest : List Line} {n : Nat}

theorem Line.Bracketed.body (h : l.Bracketed pieces) :
    bracketsBefore pieces (l.number + 1) = bracketsBefore pieces l.number + l.body.count '[' := by
  rw [h.count, Line.body, count_drop h.plain]

theorem not_mem_spaces {n : Nat} : '[' ∉ List.replicate n ' ' := fun h =>
  absurd (List.eq_of_mem_replicate h) (by decide)

theorem count_cutColumns (base : Int) (columns : Nat) : ∀ (cs : List Char) (free done : Nat),
    '[' ∉ cs.take free → (Line.cutColumns base columns free done cs).count '[' = cs.count '['
  | [], _, _, _ => List.count_eq_zero.2 not_mem_spaces
  | c :: cs, free, done, h => by
    have hrest : '[' ∉ cs.take (free - 1) := by
      cases free with
      | zero => simp
      | succ free => exact fun hmem => h (List.mem_cons_of_mem c hmem)
    unfold Line.cutColumns
    split_ifs with hdone htab hcut
    · rw [List.count_append, List.count_eq_zero.2 not_mem_spaces, Nat.zero_add]
    · rw [count_cutColumns base columns cs _ _ hrest, List.count_cons, eq_of_beq htab]
      rfl
    · rw [count_cutColumns base columns cs _ _ hrest, List.count_cons_of_ne]
      rintro rfl
      cases free with
      | zero => simp at hcut
      | succ free => exact h List.mem_cons_self
    · rfl

theorem Line.Bracketed.inside (h : l.Bracketed pieces) (columns : Nat) :
    (l.inside columns).count '[' = l.chars.count '[' :=
  count_cutColumns _ _ _ _ _ h.plain

/-- A line in a quote has its brackets behind the sign of the quote. -/
theorem Line.Bracketed.quoted? (h : l.Bracketed pieces) {q : Line} (hq : l.quoted? = some q) :
    q.Bracketed pieces := by
  have hbody := h.body
  unfold Line.quoted? at hq
  split at hq
  · rename_i rest hrest
    rw [hrest, List.count_cons_of_ne (by decide)] at hbody
    cases hq
    refine ⟨hbody.trans (congrArg _ ?_), not_mem_front (by decide) _⟩
    dsimp only
    -- a blank behind the sign is no bracket
    split
    · exact (List.count_cons_of_ne (show ' ' ≠ '[' by decide)).symm
    · split
      · exact (List.count_cons_of_ne (show '\t' ≠ '[' by decide)).symm
      · rfl
    · rfl
  · cases hq

/-- **Lines of a document from the line `n` on**, each with its brackets. -/
def LinesFrom (pieces : List (List Char)) : (n : Nat) → List Line → Prop
  | _, [] => True
  | n, l :: ls => l.number = n ∧ l.Bracketed pieces ∧ LinesFrom pieces (n + 1) ls

theorem LinesFrom.drop (h : LinesFrom pieces n ls) (m : Nat) :
    LinesFrom pieces (n + m) (ls.drop m) := by
  induction m generalizing n ls with
  | zero => exact h
  | succ m ih =>
    cases ls with
    | nil => trivial
    | cons l ls =>
      rw [Nat.add_comm m 1, ← Nat.add_assoc, Nat.add_comm 1 m]
      exact ih h.2.2

theorem LinesFrom.front (h : LinesFrom pieces n ls) {front : List Line} (hfront : front <+: ls) :
    LinesFrom pieces n front := by
  induction front generalizing n ls with
  | nil => trivial
  | cons l front ih =>
    obtain ⟨more, rfl⟩ := hfront
    exact ⟨h.1, h.2.1, ih h.2.2 (List.prefix_append _ _)⟩

/-- The text of lines has their brackets. -/
theorem LinesFrom.joinedText (h : LinesFrom pieces n ls) :
    bracketsBefore pieces n + (joinedText k ls).count '[' =
      bracketsBefore pieces (n + ls.length) := by
  rw [Markdown.joinedText, count_trim (by decide), count_intercalate]
  induction ls generalizing n with
  | nil => rfl
  | cons l ls ih =>
    obtain ⟨rfl, hl, hls⟩ := h
    rw [List.map_cons, bracketsIn_cons, hl.inside, ← Nat.add_assoc, ← hl.count, ih hls,
      List.length_cons, Nat.add_right_comm, Nat.add_assoc]

/-- A line of the document that is seen outside of containers has kept its brackets. -/
theorem bracketed_lineOf {cs : List Char} (h : pieces[n]? = some cs) :
    (lineOf n cs).Bracketed pieces := by
  refine ⟨?_, not_mem_front (by decide) cs⟩
  show bracketsBefore pieces (n + 1) = bracketsBefore pieces n + cs.count '['
  rw [bracketsBefore, List.take_add_one, h, bracketsIn_append]
  rfl

theorem linesFrom_numbered {front : List (List Char)} : ∀ {n : Nat},
    front <+: pieces.drop n → LinesFrom pieces n (numbered n front) := by
  induction front with
  | nil => exact fun _ => trivial
  | cons cs front ih =>
    intro n h
    obtain ⟨more, hmore⟩ := h
    have hfirst := congrArg (·[0]?) hmore
    rw [List.getElem?_drop] at hfirst
    refine ⟨rfl, bracketed_lineOf hfirst.symm, ih ⟨more, ?_⟩⟩
    rw [← List.drop_drop, ← hmore]
    rfl

theorem prefix_continuation (paragraph : Bool) : ∀ ls : List Line,
    continuation k paragraph ls <+: ls
  | [] => List.prefix_refl _
  | l :: ls => by
    have hrest := List.prefix_cons_inj l |>.2 (prefix_continuation paragraph ls)
    unfold continuation
    split_ifs
    · exact List.nil_prefix
    · exact hrest
    · exact List.nil_prefix
    · exact hrest

theorem length_quoteLines_le : ∀ (afterBlank : Bool) (ls : List Line),
    (quoteLines k afterBlank ls).length ≤ ls.length
  | _, [] => le_rfl
  | afterBlank, l :: ls => by
    unfold quoteLines
    split
    · exact Nat.zero_le _
    split
    · exact Nat.succ_le_succ (length_quoteLines_le _ ls)
    · split
      · exact Nat.zero_le _
      · exact Nat.succ_le_succ (length_quoteLines_le _ ls)

theorem linesFrom_quoteLines (h : LinesFrom pieces n ls) : ∀ afterBlank,
    LinesFrom pieces n (quoteLines k afterBlank ls) := by
  induction ls generalizing n with
  | nil => exact fun _ => trivial
  | cons l ls ih =>
    intro afterBlank
    obtain ⟨hnumber, hl, hls⟩ := h
    unfold quoteLines
    split
    · trivial
    split
    · rename_i q hq
      split at hq
      · cases hq
      · exact ⟨(number_quoted? hq).trans hnumber, hl.quoted? hq, ih hls _⟩
    · split
      · trivial
      · exact ⟨hnumber, ⟨hl.count, hl.plain⟩, ih hls _⟩

theorem not_mem_marker {body : List Char} {m : Marker} (h : marker? body = some m) :
    '[' ∉ body.take m.width := by
  unfold marker? at h
  dsimp only at h
  split at h
  · rename_i c rest hrest
    -- the sign before an item consists of digits and of one more character
    suffices hsign : m.width = (body.takeWhile isAsciiDigit).length + 1 ∧ c ≠ '[' by
      rw [hsign.1, List.take_add, hrest, List.mem_append, not_or]
      exact ⟨not_mem_front (by decide) body, fun hmem => hsign.2 (List.mem_singleton.1 hmem).symm⟩
    split_ifs at h with hend hdigits hbullet hnumber
    · cases h
      rw [List.isEmpty_iff.1 hdigits]
      refine ⟨rfl, ?_⟩
      rintro rfl
      exact absurd hbullet (by decide)
    · cases h
      refine ⟨rfl, ?_⟩
      rintro rfl
      exact absurd hnumber (by simp)
  · cases h

theorem marker?_of_itemAt? {interrupting : Bool} {m : Marker}
    (h : itemAt? k interrupting l = some m) : marker? l.body = some m := by
  unfold itemAt? at h
  dsimp only at h
  split_ifs at h
  split at h
  · cases h
  · split_ifs at h
    rename_i hmarker _
    exact hmarker.trans h

/-- The first line of an item has its brackets behind the sign of the item. -/
theorem Line.Bracketed.itemLine (h : l.Bracketed pieces) {m : Marker}
    (hm : '[' ∉ l.body.take m.width) : (itemLine m l).1.Bracketed pieces := by
  refine ⟨h.count, ?_⟩
  dsimp only [Markdown.itemLine]
  rw [List.take_add, List.take_add, ← List.drop_drop, List.mem_append, List.mem_append, not_or,
    not_or]
  exact ⟨⟨h.plain, hm⟩, not_mem_front (by decide) _⟩

/-! ## Cells -/

theorem bracketsIn_rawCells : ∀ (cs : List Char) (escaped : Bool),
    bracketsIn (rawCells escaped cs) = cs.count '['
  | [], _ => rfl
  | c :: cs, escaped => by
    unfold rawCells
    split_ifs with hbar hslash
    · rw [Bool.and_eq_true] at hbar
      rw [bracketsIn_cons, bracketsIn_rawCells cs, List.count_cons, eq_of_beq hbar.1]
      exact Nat.zero_add _
    · rw [Bool.and_eq_true] at hslash
      rw [bracketsIn_rawCells cs, List.count_cons, eq_of_beq hslash.1]
      rfl
    · rw [List.count_cons, ← bracketsIn_rawCells cs (c == '\\')]
      cases rawCells (c == '\\') cs with
      | nil => exact List.count_cons
      | cons cell cells => exact bracketsIn_cons_cons c cell cells

/-- An empty cell at the front has no brackets. -/
theorem bracketsIn_drop_one {texts : List (List Char)} (h : texts.head? = some []) :
    bracketsIn (texts.drop 1) = bracketsIn texts := by
  cases texts with
  | nil => rfl
  | cons cs texts =>
    obtain rfl := Option.some.inj h
    exact (Nat.zero_add _).symm

/-- An empty cell at the end has no brackets. -/
theorem bracketsIn_dropLast {texts : List (List Char)} (h : texts.getLast? = some []) :
    bracketsIn texts.dropLast = bracketsIn texts := by
  conv_rhs => rw [← List.dropLast_append_getLast? [] h, bracketsIn_append]
  rfl

/-- Cells have the brackets of their row. -/
theorem bracketsIn_cells (row : List Char) : bracketsIn (cells row) = row.count '[' := by
  unfold cells
  dsimp only
  have htrim (texts : List (List Char)) :
      bracketsIn (texts.map (trim isBlank)) = bracketsIn texts := by
    rw [bracketsIn, List.map_map, bracketsIn]
    exact congrArg List.sum (List.map_congr_left fun cs _ => count_trim (by decide) cs)
  have hall : bracketsIn (rawCells false (trim isBlank row)) = row.count '[' := by
    rw [bracketsIn_rawCells, count_trim (by decide)]
  generalize rawCells false (trim isBlank row) = all at hall ⊢
  rw [htrim, ← hall]
  have hfirst : bracketsIn (if all.head? == some [] then all.drop 1 else all) = bracketsIn all := by
    split_ifs with hempty
    · exact bracketsIn_drop_one (eq_of_beq hempty)
    · rfl
  generalize (if all.head? == some [] then all.drop 1 else all) = inner at hfirst ⊢
  rw [← hfirst]
  split_ifs with hempty
  · exact bracketsIn_dropLast (eq_of_beq hempty)
  · rfl

/-- Rows that are filled up or cut off have no more brackets. -/
theorem bracketsIn_fillCells (m : Nat) (row : List (List Char)) :
    bracketsIn (fillCells m row) ≤ bracketsIn row := by
  have hempty : ∀ n, bracketsIn (List.replicate n []) = 0 := by
    intro n
    simp [bracketsIn]
  rw [fillCells, bracketsIn_append, hempty, Nat.add_zero]
  exact bracketsIn_take_le row m

/-- The head of a table has the brackets of its line, behind which there is another one. -/
theorem exists_of_tableHead? {header : List (List Char)}
    (h : tableHead? k (l :: rest) = some header) :
    ∃ next more, rest = next :: more ∧ bracketsIn header = l.body.count '[' := by
  cases rest with
  | nil => cases h
  | cons next more =>
    refine ⟨next, more, rfl, ?_⟩
    unfold tableHead? at h
    dsimp only at h
    split_ifs at h
    split at h
    · split_ifs at h
      cases h
      rw [bracketsIn_cells, count_trim (by decide)]
    · cases h

/-! ## Places -/

/-- The lines and columns of the opening brackets in lines, the first of which has a number. -/
def bracketPlaces : (number : Nat) → List (List Char) → List (Nat × Nat)
  | _, [] => []
  | number, cs :: rest =>
    (cs.idxsOf '[').map (fun place => (number, place + 1)) ++ bracketPlaces (number + 1) rest

theorem length_bracketPlaces (lines : List (List Char)) : ∀ number,
    (bracketPlaces number lines).length = bracketsIn lines := by
  induction lines with
  | nil => exact fun _ => rfl
  | cons cs rest ih =>
    intro number
    rw [bracketPlaces, List.length_append, List.length_map, ih, bracketsIn_cons, List.idxsOf,
      List.length_findIdxs]
    rfl

/-- A bracket stands at each of the places. -/
theorem exists_of_mem_bracketPlaces {lines : List (List Char)} {p : Nat × Nat} : ∀ {number : Nat},
    p ∈ bracketPlaces number lines → ∃ row place cs, p = (number + row, place + 1) ∧
      lines[row]? = some cs ∧ cs[place]? = some '[' := by
  induction lines with
  | nil => exact fun h => absurd h List.not_mem_nil
  | cons cs rest ih =>
    intro number h
    rcases List.mem_append.1 h with h | h
    · obtain ⟨place, hplace, rfl⟩ := List.mem_map.1 h
      obtain ⟨hlt, hbracket⟩ := List.mem_findIdxs_iff_exists_getElem_pos.1 hplace
      refine ⟨0, place, cs, rfl, rfl, ?_⟩
      rw [List.getElem?_eq_getElem hlt, eq_of_beq hbracket]
    · obtain ⟨row, place, cs', rfl, hcs', hbracket⟩ := ih h
      exact ⟨row + 1, place, cs', by rw [Nat.add_right_comm]; rfl, hcs', hbracket⟩

/-- No place is counted twice. -/
theorem nodup_bracketPlaces (lines : List (List Char)) : ∀ number,
    (bracketPlaces number lines).Nodup := by
  induction lines with
  | nil => exact fun _ => List.nodup_nil
  | cons cs rest ih =>
    intro number
    refine List.Nodup.append ?_ (ih (number + 1)) fun p hp hp' => ?_
    · exact List.nodup_findIdxs.map fun _ _ h => Nat.succ_inj.1 (Prod.mk.inj h).2
    · obtain ⟨place, -, rfl⟩ := List.mem_map.1 hp
      obtain ⟨row, _, _, heq, -⟩ := exists_of_mem_bracketPlaces hp'
      have hnumber := (Prod.mk.inj heq).1
      omega

end Markdown

end Outline

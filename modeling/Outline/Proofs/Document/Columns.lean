import Outline.Proofs.Document.Places

/-!
# Columns of headings

The column of a heading is found in its line alone, which does not tell a heading with number signs
from one that is underlined. **It leads to the text behind the signs, and to the first character of
a text that is underlined, unless that is a number sign** (`columnOf_parseDocument`): a sign that
belongs to the text is skipped like those before one (`column_underlinedSign`).

* `Signed`: a line with number signs, and where the text behind them begins;
* `Underlined`: a text with a line below that underlines it;
* `signed_or_underlined`: each heading of a document is one of the two;
* `ColumnOf`: where the column of a heading leads.
-/

namespace Outline

namespace Markdown

variable {k : Inside} {nested : Reader} {l : Line} {ls rest : List Line} {cs body text : List Char}
  {level column : Nat}

/-! ## Lines of headings -/

/-- **A line with number signs**: at most three spaces, one to six signs, and behind them nothing or
a space or a tab. The column is that behind the signs and all blanks that follow them. -/
inductive Signed : (line : List Char) → (level column : Nat) → Prop
  | intro {indent level : Nat} {gap content : List Char} (indent_le : indent ≤ 3)
      (level_pos : 1 ≤ level) (level_le : level ≤ 6) (ends : endsMarker (gap ++ content) = true)
      (blanks : ∀ c ∈ gap, Outline.isBlank c = true)
      (starts : ∀ c ∈ content.head?, Outline.isBlank c = false) :
      Signed (List.replicate indent ' ' ++ (List.replicate level '#' ++ (gap ++ content))) level
        (indent + level + gap.length + 1)

/-- **A line that underlines a text**: at most three spaces, equals signs or hyphens, and blanks. -/
inductive Underlines : (line : List Char) → (level : Nat) → Prop
  | intro {indent count level : Nat} {sign : Char} {gap : List Char}
      (indent_le : indent ≤ 3) (count_pos : 0 < count)
      (sign_level : sign = '=' ∧ level = 1 ∨ sign = '-' ∧ level = 2)
      (blanks : ∀ c ∈ gap, isIndent c = true) :
      Underlines (List.replicate indent ' ' ++ (List.replicate count sign ++ gap)) level

/-- **An underlined text** that begins at the line with the number `first`, counted from 0: at most
three spaces, and then a character `c`, the first of the text, at the given column. The line is none
with number signs. Only lines that are not blank stand between it and the one that underlines it. -/
structure Underlined (lines : List (List Char)) (first level column : Nat) (c : Char) : Prop where
  begins : ∃ indent rest, lines[first]? = some (List.replicate indent ' ' ++ c :: rest) ∧
    indent ≤ 3 ∧ column = indent + 1
  visible : isIndent c = false
  unsigned : ∀ line, lines[first]? = some line → ∀ level column, ¬Signed line level column
  underlined : ∃ stop line, first < stop ∧ lines[stop]? = some line ∧ Underlines line level ∧
    ∀ i, first < i → i < stop → ∃ line, lines[i]? = some line ∧ ∃ c ∈ line, isIndent c = false

theorem Signed.ne_nil (h : Signed cs level column) : cs ≠ [] := by
  obtain ⟨-, hpos, -, -, -, -⟩ := h
  simp only [ne_eq, List.append_eq_nil_iff, List.replicate_eq_nil_iff]
  omega

theorem Underlines.ne_nil (h : Underlines cs level) : cs ≠ [] := by
  obtain ⟨-, hcount, -, -⟩ := h
  simp only [ne_eq, List.append_eq_nil_iff, List.replicate_eq_nil_iff]
  omega

/-! ## Indentation -/

theorem eq_of_isIndent {c : Char} (h : isIndent c = true) : c = ' ' ∨ c = '\t' := by
  simpa [isIndent] using h

/-- Spaces and tabs up to a column before the first tab stop are spaces. -/
theorem eq_replicate_of_indentWidth {column : Nat} (h : ∀ c ∈ cs, isIndent c = true)
    (hwidth : column + indentWidth column cs ≤ 3) :
    cs = List.replicate cs.length ' ' ∧ column + cs.length ≤ 3 := by
  induction cs generalizing column with
  | nil => exact ⟨rfl, hwidth⟩
  | cons c cs ih =>
    obtain ⟨hc, hcs⟩ := List.forall_mem_cons.1 h
    unfold indentWidth at hwidth
    rcases eq_of_isIndent hc with rfl | rfl
    · have hrest : column + 1 + indentWidth ((column + 1 : Nat) : Int) cs ≤ 3 := by
        have hspace : (' ' == '\t') = false := by decide
        simp only [hspace, Bool.false_eq_true, if_false, Nat.cast_one] at hwidth
        push_cast
        omega
      obtain ⟨heq, hle⟩ := ih hcs hrest
      rw [List.length_cons, List.replicate_succ, ← heq]
      exact ⟨rfl, by omega⟩
    · -- a tab reaches the tab stop
      simp only [BEq.rfl, if_true, tabWidth] at hwidth
      omega

theorem body_lineOf (n : Nat) (cs : List Char) : (lineOf n cs).body = cs.dropWhile isIndent :=
  drop_length_takeWhile isIndent cs

/-- A line that is not indented as code begins with at most three spaces. -/
theorem lineOf_eq {n : Nat} (h : (lineOf n cs).isCode 0 = false) :
    ∃ indent ≤ 3, cs = List.replicate indent ' ' ++ (lineOf n cs).body := by
  have hwidth : 0 + indentWidth ((0 : Nat) : Int) (cs.takeWhile isIndent) ≤ 3 := by
    have hcode : ¬4 ≤ (indentWidth 0 (cs.takeWhile isIndent) : Int) - ((0 : Nat) : Int) :=
      of_decide_eq_false h
    push_cast at hcode ⊢
    omega
  obtain ⟨heq, hle⟩ := eq_replicate_of_indentWidth (fun c hc => List.mem_takeWhile_imp hc) hwidth
  refine ⟨(cs.takeWhile isIndent).length, by omega, ?_⟩
  rw [body_lineOf, ← heq, List.takeWhile_append_dropWhile]

/-- A line with something but indentation. -/
theorem exists_of_isBlank_lineOf {n : Nat} (h : (lineOf n cs).isBlank = false) :
    ∃ c ∈ cs, isIndent c = false := by
  rw [Line.isBlank, body_lineOf, List.isEmpty_eq_false_iff] at h
  obtain ⟨c, rest, hrest⟩ := List.exists_cons_of_ne_nil h
  have hhead := head?_dropWhile isIndent cs
  rw [hrest] at hhead
  refine ⟨c, (List.dropWhile_suffix isIndent).mem ?_, hhead c rfl⟩
  rw [hrest]
  exact List.mem_cons_self

/-! ## Number signs and underlines -/

theorem ne_of_endsMarker {behind : List Char} (h : endsMarker behind = true) :
    ∀ c ∈ behind.head?, (c == '#') = false := by
  intro c hc
  rw [endsMarker, hc] at h
  rcases eq_of_isIndent h with rfl | rfl <;> rfl

theorem takeWhile_replicate {c : Char} {n : Nat} (h : ∀ d ∈ cs.head?, (d == c) = false) :
    (List.replicate n c ++ cs).takeWhile (· == c) = List.replicate n c :=
  takeWhile_append_apart (fun _ hd => beq_iff_eq.2 (List.eq_of_mem_replicate hd)) h

theorem head?_replicate {c : Char} {n : Nat} (h : 1 ≤ n) : ∀ d ∈ (List.replicate n c ++ cs).head?,
    d = c := by
  obtain ⟨n, rfl⟩ := Nat.exists_eq_add_of_le' h
  rintro d ⟨⟩
  rfl

/-- A heading has one to six number signs, and nothing or a blank behind them. -/
theorem exists_atx?_iff : (∃ text, atx? body = some (level, text)) ↔ ∃ behind,
    body = List.replicate level '#' ++ behind ∧ 1 ≤ level ∧ level ≤ 6 ∧
      endsMarker behind = true := by
  unfold atx?
  dsimp only
  constructor
  · rintro ⟨text, h⟩
    split at h
    · rename_i hsigns
      cases h
      simp only [Bool.and_eq_true, decide_eq_true_iff] at hsigns
      obtain ⟨⟨hpos, hle⟩, hends⟩ := hsigns
      refine ⟨_, ?_, hpos, hle, hends⟩
      rw [← takeWhile_eq_replicate, drop_length_takeWhile, List.takeWhile_append_dropWhile]
    · cases h
  · rintro ⟨behind, rfl, hpos, hle, hends⟩
    rw [takeWhile_replicate (ne_of_endsMarker hends), List.length_replicate,
      List.drop_left' List.length_replicate, if_pos]
    · exact ⟨_, rfl⟩
    · simp [hpos, hle, hends]

theorem signed_of_atx? {n : Nat} (hcode : (lineOf n cs).isCode 0 = false)
    (h : atx? (lineOf n cs).body = some (level, text)) : ∃ column, Signed cs level column := by
  obtain ⟨indent, hindent, hline⟩ := lineOf_eq hcode
  obtain ⟨behind, hbody, hpos, hle, hends⟩ := exists_atx?_iff.1 ⟨text, h⟩
  rw [hline, hbody, ← List.takeWhile_append_dropWhile (p := Outline.isBlank) (l := behind)]
  rw [← List.takeWhile_append_dropWhile (p := Outline.isBlank) (l := behind)] at hends
  exact ⟨_, .intro hindent hpos hle hends (fun c hc => List.mem_takeWhile_imp hc)
    (head?_dropWhile Outline.isBlank behind)⟩

theorem not_signed_of_atx? {n : Nat} (h : atx? (lineOf n cs).body = none) :
    ¬Signed cs level column := by
  rintro (@⟨indent, level, gap, content, -, hpos, hle, hends, -, -⟩)
  have hbody : (List.replicate indent ' ' ++
      (List.replicate level '#' ++ (gap ++ content))).dropWhile isIndent =
        List.replicate level '#' ++ (gap ++ content) := by
    refine dropWhile_append_apart (fun c hc => List.eq_of_mem_replicate hc ▸ rfl) fun c hc => ?_
    rw [head?_replicate hpos c hc]
    rfl
  obtain ⟨text, htext⟩ := exists_atx?_iff.2 ⟨gap ++ content, rfl, hpos, hle, hends⟩
  rw [body_lineOf, hbody, htext] at h
  cases h

theorem underlines_of_underline? {n : Nat} (hcode : (lineOf n cs).isCode 0 = false)
    (h : underline? (lineOf n cs).body = some level) : Underlines cs level := by
  obtain ⟨indent, hindent, hline⟩ := lineOf_eq hcode
  obtain ⟨sign, behind, hbody, hsign, hblanks⟩ := underline?_eq_some h
  have hrun := List.takeWhile_append_dropWhile (p := (· == sign)) (l := sign :: behind)
  rw [hbody] at hline hblanks
  rw [hline, ← hrun, takeWhile_eq_replicate]
  exact .intro hindent (by simp) hsign hblanks

/-! ## Headings among blocks -/

/-- The block that begins at a line is a heading only if the line is read as text. -/
theorem textBlock_of_mem_readBlock {first textStop stop : Nat}
    (h : .heading level first textStop stop text ∈ (readBlock nested k l rest).1) :
    l.isCode k.indent = false ∧
      .heading level first textStop stop text ∈ (textBlock k l rest).1 := by
  unfold readBlock at h
  split at h
  · cases List.mem_singleton.1 h
  split at h
  · exact absurd h List.not_mem_nil
  rename_i hcode
  refine ⟨Bool.eq_false_iff.2 hcode, ?_⟩
  split at h
  · cases List.mem_singleton.1 h
  split at h
  · cases List.mem_singleton.1 h
  split at h
  · exact absurd h List.not_mem_nil
  split at h
  · cases List.mem_singleton.1 h
  unfold plainBlock at h
  split at h
  · cases List.mem_singleton.1 h
  split at h
  · exact absurd h List.not_mem_nil
  · exact h

/-- **A heading is read at a line** that is neither blank nor indented as code. -/
theorem textBlock_of_mem_readBlocks {first textStop stop : Nat} : ∀ (fuel : Nat) {ls : List Line},
    .heading level first textStop stop text ∈ (readBlocks nested k fuel ls).1 →
      ∃ n l rest, ls.drop n = l :: rest ∧ l.isBlank = false ∧ l.isCode k.indent = false ∧
        .heading level first textStop stop text ∈ (textBlock k l rest).1
  | 0, _, h => absurd h List.not_mem_nil
  | fuel + 1, ls, h => by
    unfold readBlocks at h
    dsimp only at h
    split at h
    · exact absurd h List.not_mem_nil
    rename_i l rest hdrop
    split_ifs at h
    · exact absurd h List.not_mem_nil
    · exact absurd h List.not_mem_nil
    rcases List.mem_append.1 h with h | h
    · have hblank := head?_dropWhile Line.isBlank ls
      rw [← drop_length_takeWhile, hdrop] at hblank
      exact ⟨_, l, rest, hdrop, hblank l rfl, textBlock_of_mem_readBlock h⟩
    · obtain ⟨n, l', rest', hdrop', hfound⟩ := textBlock_of_mem_readBlocks fuel h
      rw [List.drop_drop] at hdrop'
      exact ⟨_, l', rest', hdrop', hfound⟩

/-! ## Lines of the text -/

theorem isBlank_readAs (c : Char) : Outline.isBlank (readAs c) = Outline.isBlank c :=
  apply_readAs (by decide) c

theorem isIndent_readAs (c : Char) : isIndent (readAs c) = isIndent c := apply_readAs (by decide) c

theorem map_readAs_eq_replicate_iff {n : Nat} {d : Char} (hd : ('\uFFFD' == d) = ('\x00' == d)) :
    cs.map readAs = List.replicate n d ↔ cs = List.replicate n d := by
  have heq (c : Char) : readAs c = d ↔ c = d := by
    rw [← beq_iff_eq, apply_readAs (f := (· == d)) hd, beq_iff_eq]
  simp only [List.eq_replicate_iff, List.length_map, List.forall_mem_map, heq]

theorem endsMarker_map_readAs (cs : List Char) : endsMarker (cs.map readAs) = endsMarker cs := by
  cases cs with
  | nil => rfl
  | cons c cs => exact isIndent_readAs c

theorem signed_map_readAs_iff : Signed (cs.map readAs) level column ↔ Signed cs level column := by
  constructor
  · intro h
    generalize hline : cs.map readAs = line at h
    obtain ⟨hindent, hpos, hle, hends, hblanks, hstarts⟩ := h
    rename_i indent gap content
    obtain ⟨front, cs, rfl, hfront, hline⟩ := List.map_eq_append_iff.1 hline
    obtain ⟨signs, cs, rfl, hsigns, hline⟩ := List.map_eq_append_iff.1 hline
    obtain ⟨gap, content, rfl, rfl, rfl⟩ := List.map_eq_append_iff.1 hline
    rw [(map_readAs_eq_replicate_iff (by decide)).1 hfront,
      (map_readAs_eq_replicate_iff (by decide)).1 hsigns, List.length_map]
    rw [← List.map_append, endsMarker_map_readAs] at hends
    refine .intro hindent hpos hle hends (fun c hc => ?_) fun c hc => ?_
    · rw [← isBlank_readAs]
      exact hblanks _ (List.mem_map_of_mem hc)
    · rw [← isBlank_readAs]
      exact hstarts _ (by rw [List.head?_map, hc]; rfl)
  · rintro ⟨hindent, hpos, hle, hends, hblanks, hstarts⟩
    rename_i indent gap content
    simp only [List.map_append, List.map_replicate]
    have hgap : (gap.map readAs).length = gap.length := List.length_map readAs
    rw [← hgap]
    refine .intro hindent hpos hle ?_ (fun c hc => ?_) fun c hc => ?_
    · rwa [← List.map_append, endsMarker_map_readAs]
    · obtain ⟨d, hd, rfl⟩ := List.mem_map.1 hc
      rw [isBlank_readAs]
      exact hblanks d hd
    · rw [List.head?_map] at hc
      obtain ⟨d, hd, rfl⟩ := Option.map_eq_some_iff.1 hc
      rw [isBlank_readAs]
      exact hstarts d hd

theorem underlines_of_map_readAs (h : Underlines (cs.map readAs) level) : Underlines cs level := by
  generalize hline : cs.map readAs = line at h
  obtain ⟨hindent, hcount, hsign, hblanks⟩ := h
  rename_i indent count sign gap
  obtain ⟨front, cs, rfl, hfront, hline⟩ := List.map_eq_append_iff.1 hline
  obtain ⟨signs, gap, rfl, hsigns, rfl⟩ := List.map_eq_append_iff.1 hline
  have hsign' : ('\uFFFD' == sign) = ('\x00' == sign) := by
    rcases hsign with ⟨rfl, -⟩ | ⟨rfl, -⟩ <;> decide
  rw [(map_readAs_eq_replicate_iff (by decide)).1 hfront,
    (map_readAs_eq_replicate_iff hsign').1 hsigns]
  refine .intro hindent hcount hsign fun c hc => ?_
  rw [← isIndent_readAs]
  exact hblanks _ (List.mem_map_of_mem hc)

theorem getElem?_numbered (pieces : List (List Char)) (i : Nat) : ∀ n,
    (numbered n pieces)[i]? = pieces[i]?.map (lineOf (n + i)) := by
  induction pieces generalizing i with
  | nil => exact fun _ => rfl
  | cons cs pieces ih =>
    intro n
    cases i with
    | zero => rfl
    | succ i =>
      rw [numbered, List.getElem?_cons_succ, List.getElem?_cons_succ, ih, Nat.add_right_comm,
        Nat.add_assoc]

/-- A line that blocks are read from is the one of the text at its place. -/
theorem getElem?_documentLines (hreturn : '\r' ∉ body) {n : Nat}
    (h : (documentLines body)[n]? = some l) :
    ∃ line, (cutOn '\n' body)[n]? = some line ∧ l = lineOf n (line.map readAs) := by
  rw [documentLines, cutOn_normalized hreturn] at h
  rw [getElem?_numbered, Nat.zero_add] at h
  obtain ⟨cs, hcs, rfl⟩ := Option.map_eq_some_iff.1 h
  have hkept : ((cutOn '\n' body).map (List.map readAs))[n]? = some cs := by
    split at hcs
    · rw [List.getElem?_dropLast] at hcs
      split at hcs
      · exact hcs
      · cases hcs
    · exact hcs
  rw [List.getElem?_map] at hkept
  obtain ⟨line, hline, rfl⟩ := Option.map_eq_some_iff.1 hkept
  exact ⟨line, hline, rfl⟩

/-- The first character of a line that is neither blank nor indented as code. -/
theorem begins_of_lineOf {n : Nat} (hcode : (lineOf n (cs.map readAs)).isCode 0 = false)
    (hblank : (lineOf n (cs.map readAs)).isBlank = false) : ∃ indent c rest,
      cs = List.replicate indent ' ' ++ c :: rest ∧ indent ≤ 3 ∧ isIndent c = false := by
  obtain ⟨indent, hindent, hline⟩ := lineOf_eq hcode
  obtain ⟨front, behind, rfl, hfront, hbehind⟩ := List.map_eq_append_iff.1 hline
  rw [Line.isBlank, ← hbehind, List.isEmpty_eq_false_iff, ne_eq, List.map_eq_nil_iff] at hblank
  obtain ⟨c, rest, rfl⟩ := List.exists_cons_of_ne_nil hblank
  refine ⟨indent, c, rest, by rw [(map_readAs_eq_replicate_iff (by decide)).1 hfront], hindent, ?_⟩
  rw [← isIndent_readAs]
  rw [body_lineOf] at hbehind
  exact head?_dropWhile isIndent _ _ (by rw [← hbehind]; rfl)

theorem heading_of_mem_textBlock {first textStop stop : Nat}
    (h : .heading level first textStop stop text ∈ (textBlock k l rest).1) : first = l.number ∧
      (atx? l.body = some (level, text) ∨
        atx? l.body = none ∧ ∃ more, underlined? k rest = some (level, more)) := by
  unfold textBlock at h
  split at h
  · rename_i hatx
    cases List.mem_singleton.1 h
    exact ⟨rfl, .inl hatx⟩
  · rename_i hatx
    split at h
    · rename_i hunder
      cases List.mem_singleton.1 h
      exact ⟨rfl, .inr ⟨hatx, _, hunder⟩⟩
    · cases List.mem_singleton.1 h

/-- **A heading of a document has number signs or is underlined.** -/
theorem signed_or_underlined (hreturn : '\r' ∉ body) {first textStop stop : Nat}
    (h : .heading level first textStop stop text ∈ blocksOf body) :
    (∃ line column, (cutOn '\n' body)[first]? = some line ∧ Signed line level column) ∨
      ∃ column c, Underlined (cutOn '\n' body) first level column c := by
  obtain ⟨n, l, rest, hdrop, hblank, hcode, h⟩ := textBlock_of_mem_readBlocks _ h
  have hline : (documentLines body)[n]? = some l := by
    rw [← List.head?_drop, hdrop, List.head?_cons]
  have hrest (i : Nat) : rest[i]? = (documentLines body)[n + (i + 1)]? := by
    rw [← List.getElem?_drop, hdrop, List.getElem?_cons_succ]
  obtain ⟨line, hcut, rfl⟩ := getElem?_documentLines hreturn hline
  obtain ⟨hfirst, h⟩ := heading_of_mem_textBlock h
  change first = n at hfirst
  subst hfirst
  rcases h with hatx | ⟨hatx, more, hunder⟩
  · obtain ⟨column, hsigned⟩ := signed_of_atx? hcode hatx
    exact .inl ⟨line, column, hcut, signed_map_readAs_iff.1 hsigned⟩
  · obtain ⟨⟨l, hl, hcode', hlevel⟩, hbetween⟩ := underlined?_eq_some hunder
    obtain ⟨indent, c, behind, hchars, hindent, hvisible⟩ := begins_of_lineOf hcode hblank
    refine .inr ⟨indent + 1, c, ⟨indent, behind, hchars ▸ hcut, hindent, rfl⟩, hvisible,
      fun line' hline' level column hsigned => ?_, ?_⟩
    · cases hcut.symm.trans hline'
      exact not_signed_of_atx? hatx (signed_map_readAs_iff.2 hsigned)
    · rw [hrest] at hl
      obtain ⟨stop, hstop, rfl⟩ := getElem?_documentLines hreturn hl
      refine ⟨_, stop, by omega, hstop,
        underlines_of_map_readAs (underlines_of_underline? hcode' hlevel), fun i hfirst hi => ?_⟩
      obtain ⟨j, rfl⟩ := Nat.exists_eq_add_of_lt hfirst
      obtain ⟨l', hl', hblank'⟩ := hbetween j (by omega)
      rw [hrest] at hl'
      obtain ⟨line', hline', rfl⟩ := getElem?_documentLines hreturn hl'
      obtain ⟨c', hc', hvisible'⟩ := exists_of_isBlank_lineOf hblank'
      obtain ⟨d, hd, rfl⟩ := List.mem_map.1 hc'
      exact ⟨line', hline', d, hd, isIndent_readAs d ▸ hvisible'⟩

theorem not_mem_of_eventSpans {events : List Event} {first stop : Nat} {pieces : List Inline}
    (h : eventSpans events = []) : .heading level first stop pieces ∉ events := fun hmem => by
  have hspan : (first, stop) ∈ eventSpans events := List.mem_filterMap.2 ⟨_, hmem, rfl⟩
  rw [h] at hspan
  exact absurd hspan List.not_mem_nil

/-- A heading that begins a section is a block of the document itself. -/
theorem mem_blocksOf_of_mem_documentEvents {first stop : Nat} {pieces : List Inline}
    (h : .heading level first stop pieces ∈ documentEvents body) :
    ∃ textStop text, .heading level first textStop stop text ∈ blocksOf body := by
  obtain ⟨b, hb, h⟩ := mem_eventsOf.1 h
  cases b with
  | heading level' first' textStop stop' text =>
    cases List.mem_singleton.1 h
    exact ⟨textStop, text, hb⟩
  | paragraph | fence => cases List.mem_singleton.1 h
  | quote blocks => exact absurd h (not_mem_of_eventSpans (eventSpans_eventsOf_inside _ blocks))
  | list ordered first' items =>
    have hitems : .heading level first stop pieces ∉
        itemEvents (allDefinitions (blocksOf body)) items :=
      not_mem_of_eventSpans (eventSpans_itemEvents _ items)
    simp [blockEvents, hitems] at h
  | table first' header rows =>
    exact absurd h (not_mem_of_eventSpans (eventSpans_table _ true first' header rows))
  | definition => exact absurd h List.not_mem_nil

end Markdown

open Markdown (Event Signed Underlines Underlined documentEvents)

variable {lines lines' : List (List Char)} {line : List Char} {level column : Nat}

/-! ## Columns -/

theorem headingColumn_of_signed (h : Signed line level column) : headingColumn line = column := by
  obtain ⟨hindent, hpos, hle, hends, hblanks, hstarts⟩ := h
  rename_i indent gap content
  have hspace : ∀ c ∈ (List.replicate level '#' ++ (gap ++ content)).head?, (c == ' ') = false := by
    intro c hc
    rw [Markdown.head?_replicate hpos c hc]
    rfl
  unfold headingColumn
  dsimp only
  rw [Markdown.takeWhile_replicate hspace, List.length_replicate,
    List.drop_left' List.length_replicate, Markdown.takeWhile_replicate
      (Markdown.ne_of_endsMarker hends), List.length_replicate, if_neg (by omega),
    List.drop_left' List.length_replicate, blockColumn, takeWhile_append_apart hblanks hstarts]
  rfl

/-- Behind spaces, the column is that of the first character, or a later one if that is a number
sign. -/
theorem headingColumn_of_visible {c : Char} (h : Markdown.isIndent c = false) (indent : Nat)
    (rest : List Char) :
    (c ≠ '#' → headingColumn (List.replicate indent ' ' ++ c :: rest) = indent + 1) ∧
      (c = '#' → indent + 1 < headingColumn (List.replicate indent ' ' ++ c :: rest)) := by
  have hspace : ∀ d ∈ (c :: rest).head?, (d == ' ') = false := by
    rintro d ⟨⟩
    exact (Bool.or_eq_false_iff.1 h).1
  unfold headingColumn
  dsimp only
  rw [Markdown.takeWhile_replicate hspace, List.length_replicate,
    List.drop_left' List.length_replicate]
  constructor
  · intro hc
    rw [List.takeWhile_cons_of_neg (by simpa using hc), List.length_nil, if_pos rfl]
  · rintro rfl
    rw [List.takeWhile_cons_of_pos (by decide), List.length_cons, if_neg (Nat.succ_ne_zero _),
      blockColumn]
    omega

/-- **Where the column of a heading leads.** -/
inductive ColumnOf (lines : List (List Char)) (heading : Heading) : Prop
  | signed {first : Nat} {line : List Char} (line_eq : heading.line = first + 1)
      (stands : lines[first]? = some line) (signs : Signed line heading.level heading.column)
  | underlined {first column : Nat} {c : Char} (line_eq : heading.line = first + 1)
      (stands : Underlined lines first heading.level column c)
      (behind : c ≠ '#' → heading.column = column) (late : c = '#' → column < heading.column)

theorem columnOf_headingColumn {body : List Char} (hreturn : '\r' ∉ body) {heading : Heading}
    {first stop : Nat} {pieces : List Markdown.Inline}
    (h : .heading heading.level first stop pieces ∈ documentEvents body)
    (hline : heading.line = first + 1)
    (hcolumn : heading.column = headingColumn (lineAt (cutOn '\n' body) (first + 1))) :
    ColumnOf (cutOn '\n' body) heading := by
  obtain ⟨textStop, text, hblock⟩ := Markdown.mem_blocksOf_of_mem_documentEvents h
  have hat {line : List Char} (hfirst : (cutOn '\n' body)[first]? = some line) :
      heading.column = headingColumn line := by
    rw [hcolumn, lineAt, if_neg (Nat.succ_ne_zero _), Nat.add_sub_cancel, hfirst, Option.getD_some]
  rcases Markdown.signed_or_underlined hreturn hblock with
    ⟨line, column, hfirst, hsigned⟩ | ⟨column, c, hunder⟩
  · rw [← headingColumn_of_signed hsigned, ← hat hfirst] at hsigned
    exact .signed hline hfirst hsigned
  · obtain ⟨indent, rest, hfirst, -, rfl⟩ := hunder.begins
    obtain ⟨hplain, hsign⟩ := headingColumn_of_visible hunder.visible indent rest
    rw [← hat hfirst] at hplain hsign
    exact .underlined hline hunder hplain hsign

/-! ## Sections -/

/-- The level, the line and the column of the heading of a section. -/
def Section.place (s : Section) : Nat × Nat × Nat :=
  (s.heading.level, s.heading.line, s.heading.column)

/-- The level of an entry, and the line and the column of its heading. -/
def Entry.place (lines : List (List Char)) (e : Entry) : Nat × Nat × Nat :=
  (e.level, e.first + 1, headingColumn (lineAt lines (e.first + 1)))

theorem map_place_flatSections (lines : List (List Char)) (entries : List Entry) :
    (flatSections lines entries).map Section.place = entries.map (Entry.place lines) := by
  induction entries with
  | nil => rfl
  | cons e es ih => rw [flatSections, List.map_cons, List.map_cons, ih]; rfl

/-- The heading of a section comes from an event. -/
theorem heading_of_mem_sectionsOf {events : List Event} {s : Section}
    (h : s ∈ walkAll (sectionsOf lines events).2) : ∃ first stop pieces,
      .heading s.heading.level first stop pieces ∈ events ∧ s.heading.line = first + 1 ∧
        s.heading.column = headingColumn (lineAt lines (first + 1)) := by
  have hplaces : (walkAll (sectionsOf lines events).2).map Section.place =
      (eventEntries events).map (Entry.place lines) :=
    calc (walkAll (sectionsOf lines events).2).map Section.place
        = (flatSections lines (gather lines events).2).map Section.place :=
          map_nest (fun _ => rfl) _
      _ = ((gather lines events).2.map Entry.bare).map (Entry.place lines) := by
          rw [map_place_flatSections, List.map_map]
          rfl
      _ = _ := by rw [map_bare_gather]
  have hplace := List.mem_map_of_mem (f := Section.place) h
  rw [hplaces] at hplace
  obtain ⟨e, he, hplace⟩ := List.mem_map.1 hplace
  obtain ⟨event, hevent, hentry⟩ := List.mem_filterMap.1 he
  cases event with
  | heading level first stop pieces =>
    cases hentry
    rw [Entry.place, Section.place, Prod.mk.injEq, Prod.mk.injEq] at hplace
    obtain ⟨hlevel, hline, hcolumn⟩ := hplace
    exact ⟨first, stop, pieces, hlevel ▸ hevent, hline.symm, hcolumn.symm⟩
  | _ => cases hentry

/-- A line of the body that is not empty is the one of the text at its place. -/
theorem getElem?_of_splitFrontMatter {text body : String} {frontMatter : Option FrontMatter}
    (h : splitFrontMatter text = .ok (frontMatter, body)) {i : Nat}
    (hline : (cutOn '\n' body.toList)[i]? = some line) (hsome : line ≠ []) :
    (cutOn '\n' text.toList)[i]? = some line := by
  have hsplit := split_splitFrontMatter h
  cases frontMatter with
  | none => rwa [hsplit.without rfl] at hline
  | some f =>
    obtain ⟨close, -, -, -, hempty, hkept⟩ := hsplit.within f rfl
    by_cases hi : i ≤ close
    · rw [hempty i hi] at hline
      cases hline
      exact absurd rfl hsome
    · rwa [← hkept i (Nat.lt_of_not_le hi)]

/-- The lines of headings are not empty. -/
theorem ColumnOf.mono {heading : Heading} (h : ColumnOf lines heading)
    (hlines : ∀ (i : Nat) line, lines[i]? = some line → line ≠ [] → lines'[i]? = some line) :
    ColumnOf lines' heading := by
  cases h with
  | signed hline hstands hsigned =>
    exact .signed hline (hlines _ _ hstands hsigned.ne_nil) hsigned
  | underlined hline hunder hplain hsign =>
    refine .underlined hline ?_ hplain hsign
    obtain ⟨⟨indent, rest, hfirst, hindent⟩, hvisible, hunsigned, stop, line, hstop, hline,
      hunderlines, hbetween⟩ := hunder
    have hfirst' := hlines _ _ hfirst (by simp)
    refine ⟨⟨indent, rest, hfirst', hindent⟩, hvisible, fun line' hline' => hunsigned line' ?_,
      stop, line, hstop, hlines _ _ hline hunderlines.ne_nil, hunderlines, fun i hi hi' => ?_⟩
    · rwa [hfirst, ← hfirst']
    · obtain ⟨line, hline, c, hc, hvisible⟩ := hbetween i hi hi'
      exact ⟨line, hlines _ _ hline (List.ne_nil_of_mem hc), c, hc, hvisible⟩

/-- **The column of every heading leads to its text**, except where an underlined text begins with a
number sign. -/
theorem columnOf_parseDocument {text path : String} {d : Document}
    (h : parseDocument text path = .ok d) (hreturn : '\r' ∉ text.toList) :
    ∀ s ∈ d.allSections, ColumnOf (cutOn '\n' text.toList) s.heading := by
  obtain ⟨⟨frontMatter, body⟩, hsplit, h⟩ := bind_eq_ok.1 h
  have hbody := (places_of_splitFrontMatter hsplit hreturn).1
  cases h
  intro s hs
  obtain ⟨first, stop, pieces, hevent, hline, hcolumn⟩ := heading_of_mem_sectionsOf hs
  exact (columnOf_headingColumn hbody hevent hline hcolumn).mono fun i line hline hsome =>
    getElem?_of_splitFrontMatter hsplit hline hsome

/-- A heading with number signs behind front matter, and two that are underlined. -/
def threeHeadings : String := "---\na: b\n---\n  ## A ##\n\n B\nC\n===\n#D\n---\n"

theorem columnOf_threeHeadings : '\r' ∉ threeHeadings.toList ∧
    ∃ d, parseDocument threeHeadings "" = .ok d ∧
      d.allSections.map (fun s => (s.heading.line, s.heading.column)) = [(4, 6), (6, 2), (9, 2)] ∧
      ∀ s ∈ d.allSections, ColumnOf (cutOn '\n' threeHeadings.toList) s.heading := by
  have hreturn : '\r' ∉ threeHeadings.toList := by decide
  have hread : (parseDocument threeHeadings "").toOption.map
      (fun d => d.allSections.map fun s => (s.heading.line, s.heading.column)) =
        some [(4, 6), (6, 2), (9, 2)] := by decide +kernel
  refine ⟨hreturn, ?_⟩
  cases h : parseDocument threeHeadings "" with
  | ok d =>
    rw [h] at hread
    exact ⟨d, rfl, Option.some.inj hread, columnOf_parseDocument h hreturn⟩
  | error fault =>
    rw [h] at hread
    cases hread

/-- **A text that begins with a number sign is reported behind it**, though the sign belongs to the
text. -/
theorem column_underlinedSign :
    (parseDocument "#a\n===\n" "").toOption.map
        (fun d => d.allSections.map fun s => (s.heading.text, s.heading.line, s.heading.column)) =
      some [("#a", 1, 2)] ∧
    Underlined (cutOn '\n' "#a\n===\n".toList) 0 1 1 '#' := by
  refine ⟨by decide +kernel, ⟨0, ['a'], rfl, by decide, rfl⟩, rfl, fun line hline _ _ => ?_,
    1, ['=', '=', '='], by decide, rfl, ?_, fun i hi hi' => absurd hi' (by omega)⟩
  · cases hline
    exact Markdown.not_signed_of_atx? (n := 0) rfl
  · have hline : Underlines (List.replicate 0 ' ' ++ (List.replicate 3 '=' ++ [])) 1 :=
      .intro (by decide) (by decide) (.inl ⟨rfl, rfl⟩) (List.forall_mem_nil _)
    exact hline

/-! A carriage return ends a line of the blocks, but none of the text: the line of a heading behind
one is not found. -/

example : (parseDocument "a\r# B\n" "").toOption.map
      (fun d => d.allSections.map fun s => (s.heading.text, s.heading.line, s.heading.column)) =
    some [("B", 2, 1)] := by
  decide +kernel

end Outline

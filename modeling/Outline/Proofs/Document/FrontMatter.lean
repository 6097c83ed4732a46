import Outline.Document.Build
import Outline.Proofs.Except
import Outline.Proofs.Text.Blank
import Outline.Proofs.Yaml.Build

/-!
# Documents that are read

Every text is read as a document, unless it begins with front matter that is ill in another way than
being no YAML; front matter that writes no mapping is kept as such, with the body behind it
(**`read_parseDocument`**). Where a text is split, **each line of the body is the line of the text at
its place, or an empty one** (`split_splitFrontMatter`).

* `contentBefore`, `bodyBehind`: front matter up to a line, and what stands behind the line;
* `Stops`: front matter that no document can be read with;
* `ReadAsDocument`: what becomes of a text;
* `ClosesFirst`: the line that closes front matter, and none before it does;
* `SplitAs`: what a text is split into.
-/

namespace Outline

variable {text path : String} {fault : Fault}

/-- The front matter before the line that closes it. -/
def contentBefore (lines : List (List Char)) (close : Nat) : String :=
  String.ofList (joinLines ((lines.take close).drop 1))

/-- The lines behind the one that closes front matter, and empty lines for those up to it. -/
def bodyBehind (lines : List (List Char)) (close : Nat) : String :=
  String.ofList (joinLines (List.replicate (close + 1) [] ++ lines.drop (close + 1)))

/-- Front matter that cannot be loaded though it may be YAML. -/
def Stops (content : String) (fault : Fault) : Prop :=
  content.toList.all isBlank = false ∧ Yaml.load content = .error fault ∧ fault ≠ .notYaml

theorem readEntries_eq_error_iff {content : String} :
    readEntries content = .error fault ↔ Stops content fault := by
  unfold readEntries Stops
  split
  · rename_i hblank
    exact iff_of_false (fun h => nomatch h) fun h => Bool.false_ne_true (h.1.symm.trans hblank)
  · rename_i hblank
    rw [and_iff_right (Bool.eq_false_iff.2 hblank)]
    split
    · rename_i hload
      exact iff_of_false (fun h => nomatch h) fun h => nomatch hload.symm.trans h.1
    · rename_i hload
      exact iff_of_false (fun h => nomatch h) fun h => nomatch hload.symm.trans h.1
    · rename_i hload
      refine iff_of_false (fun h => nomatch h) fun h => h.2 ?_
      exact (Except.error.inj (hload.symm.trans h.1)).symm
    · rename_i f hnot hload
      rw [hload, Except.error.injEq, Except.error.injEq, iff_self_and]
      rintro rfl
      exact hnot

theorem readEntries_eq_ok {content : String}
    {entries : Except FrontMatterError (List (Value × Value))}
    (h : readEntries content = .ok entries) :
    (∃ es, entries = .ok es) ↔
      content.toList.all isBlank = true ∨ ∃ es, Yaml.load content = .ok (.map es) := by
  unfold readEntries at h
  split at h
  · rename_i hblank
    exact iff_of_true ⟨_, (Except.ok.inj h).symm⟩ (.inl hblank)
  · rename_i hblank
    rw [or_iff_right hblank]
    split at h
    · rename_i es hload
      exact iff_of_true ⟨es, (Except.ok.inj h).symm⟩ ⟨es, hload⟩
    · rename_i v hmap hload
      refine iff_of_false ?_ ?_
      · rintro ⟨es, rfl⟩
        cases h
      · rintro ⟨es, hes⟩
        rw [hload] at hes
        exact hmap es (Except.ok.inj hes)
    · rename_i hload
      refine iff_of_false ?_ ?_
      · rintro ⟨es, rfl⟩
        cases h
      · rintro ⟨es, hes⟩
        rw [hload] at hes
        cases hes
    · cases h

theorem splitFrontMatter_eq {close : Nat}
    (h : closingLine? (cutOn '\n' text.toList) = some close) : splitFrontMatter text =
      (readEntries (contentBefore (cutOn '\n' text.toList) close)).map fun entries =>
        (some ⟨contentBefore (cutOn '\n' text.toList) close, entries⟩,
          bodyBehind (cutOn '\n' text.toList) close) := by
  simp only [splitFrontMatter, h]
  rfl

/-- **What becomes of a text.** Without front matter the text is the body. Front matter that stops
nothing gives its entries or the reason why it has none, and the body behind it. The document cannot be
read exactly if its front matter stops it, and then that is ill. -/
structure ReadAsDocument (text path : String) : Prop where
  without : closingLine? (cutOn '\n' text.toList) = none → splitFrontMatter text = .ok (none, text)
  within : ∀ close, closingLine? (cutOn '\n' text.toList) = some close →
    (∀ fault, ¬Stops (contentBefore (cutOn '\n' text.toList) close) fault) →
      ∃ entries, splitFrontMatter text =
          .ok (some ⟨contentBefore (cutOn '\n' text.toList) close, entries⟩,
            bodyBehind (cutOn '\n' text.toList) close) ∧
        ((∃ es, entries = .ok es) ↔
          (contentBefore (cutOn '\n' text.toList) close).toList.all isBlank = true ∨
            ∃ es, Yaml.load (contentBefore (cutOn '\n' text.toList) close) = .ok (.map es))
  stops : ∀ fault, splitFrontMatter text = .error fault ↔
    ∃ close, closingLine? (cutOn '\n' text.toList) = some close ∧
      Stops (contentBefore (cutOn '\n' text.toList) close) fault
  ill : ∀ content fault, Stops content fault → Yaml.Ill content fault
  document : ∀ fault, parseDocument text path = .error fault ↔ splitFrontMatter text = .error fault

/-- **Every text is read as a document**, unless its front matter is ill. -/
theorem read_parseDocument (text path : String) : ReadAsDocument text path where
  without h := by
    simp only [splitFrontMatter, h]
  within close h hstops := by
    cases hread : readEntries (contentBefore (cutOn '\n' text.toList) close) with
    | error fault => exact absurd (readEntries_eq_error_iff.1 hread) (hstops fault)
    | ok entries =>
      refine ⟨entries, ?_, readEntries_eq_ok hread⟩
      rw [splitFrontMatter_eq h, hread]
      rfl
  stops fault := by
    cases h : closingLine? (cutOn '\n' text.toList) with
    | none => simp [splitFrontMatter, h]
    | some close =>
      rw [splitFrontMatter_eq h, map_eq_error_iff, readEntries_eq_error_iff]
      simp
  ill content fault h := Yaml.ill_of_load h.2.1
  document fault := bind_pure_eq_error_iff

/-- A text whose front matter has a date that does not exist. -/
def impossibleDate : String := "---\ndate: 2024-13-45\n---\n"

theorem parseDocument_impossibleDate :
    closingLine? (cutOn '\n' impossibleDate.toList) = some 2 ∧
      parseDocument impossibleDate "" = .error (.calendar .month) :=
  ⟨by decide, failure?_eq_some_iff.1 (by decide +kernel)⟩

/-! ## Where front matter ends -/

/-- A line of nothing but `---` and blanks behind it. -/
def IsOpening (line : List Char) : Prop := trimRight isBlank line = ['-', '-', '-']

/-- A line of nothing but `---` or `...` and blanks behind it. -/
def IsClosing (line : List Char) : Prop :=
  trimRight isBlank line = ['-', '-', '-'] ∨ trimRight isBlank line = ['.', '.', '.']

/-- The place of the first line that closes front matter, behind a line that opens it. -/
structure ClosesFirst (lines : List (List Char)) (close : Nat) : Prop where
  opens : ∃ line, lines[0]? = some line ∧ IsOpening line
  positive : 1 ≤ close
  closes : ∃ line, lines[close]? = some line ∧ IsClosing line
  least : ∀ i, 1 ≤ i → i < close → ∀ line, lines[i]? = some line → ¬IsClosing line

variable {lines : List (List Char)} {line : List Char} {close : Nat}

theorem opensFrontMatter_iff : opensFrontMatter line = true ↔ IsOpening line := beq_iff_eq

theorem closesFrontMatter_iff : closesFrontMatter line = true ↔ IsClosing line := by
  rw [closesFrontMatter, Bool.or_eq_true, opensFrontMatter_iff, beq_iff_eq, IsClosing, IsOpening]

/-- **Front matter ends at the first line behind its front that closes it.** -/
theorem closingLine?_eq_some_iff : closingLine? lines = some close ↔ ClosesFirst lines close := by
  cases lines with
  | nil => exact iff_of_false nofun fun h => nomatch h.opens
  | cons first rest =>
    unfold closingLine?
    dsimp only
    constructor
    · intro h
      split at h
      · rename_i hopens
        obtain ⟨i, hi, rfl⟩ := Option.map_eq_some_iff.1 h
        obtain ⟨hlt, hcloses, hleast⟩ := List.findIdx?_eq_some_iff_getElem.1 hi
        refine ⟨⟨first, rfl, opensFrontMatter_iff.1 hopens⟩, Nat.succ_pos i,
          ⟨rest[i], ?_, closesFrontMatter_iff.1 hcloses⟩, fun j hpos hj line hline => ?_⟩
        · rw [List.getElem?_cons_succ, List.getElem?_eq_getElem hlt]
        · obtain ⟨j, rfl⟩ := Nat.exists_eq_succ_of_ne_zero (Nat.one_le_iff_ne_zero.1 hpos)
          rw [List.getElem?_cons_succ] at hline
          obtain ⟨_, rfl⟩ := List.getElem?_eq_some_iff.1 hline
          rw [← closesFrontMatter_iff]
          exact hleast j (Nat.lt_of_succ_lt_succ hj)
      · cases h
    · rintro ⟨⟨_, hfirst, hopens⟩, hpos, ⟨line, hline, hcloses⟩, hleast⟩
      cases hfirst
      obtain ⟨close, rfl⟩ := Nat.exists_eq_succ_of_ne_zero (Nat.one_le_iff_ne_zero.1 hpos)
      rw [List.getElem?_cons_succ] at hline
      obtain ⟨hlt, rfl⟩ := List.getElem?_eq_some_iff.1 hline
      rw [if_pos (opensFrontMatter_iff.2 hopens), Option.map_eq_some_iff]
      refine ⟨close, List.findIdx?_eq_some_iff_getElem.2 ⟨hlt, closesFrontMatter_iff.2 hcloses,
        fun j hj => ?_⟩, rfl⟩
      rw [closesFrontMatter_iff]
      exact hleast (j + 1) (Nat.succ_pos j) (Nat.succ_lt_succ hj) _
        (by rw [List.getElem?_cons_succ, List.getElem?_eq_getElem (hj.trans hlt)])

/-- A text has no front matter if its first line opens none, or no line behind that closes it. -/
theorem closingLine?_eq_none_iff : closingLine? lines = none ↔
    (∀ line, lines[0]? = some line → ¬IsOpening line) ∨
      ∀ i, 1 ≤ i → ∀ line, lines[i]? = some line → ¬IsClosing line := by
  cases lines with
  | nil => exact iff_of_true rfl (.inl nofun)
  | cons first rest =>
    unfold closingLine?
    dsimp only
    by_cases hopens : opensFrontMatter first = true
    · rw [if_pos hopens, Option.map_eq_none_iff, List.findIdx?_eq_none_iff]
      constructor
      · intro h
        refine .inr fun i hpos line hline => ?_
        obtain ⟨i, rfl⟩ := Nat.exists_eq_succ_of_ne_zero (Nat.one_le_iff_ne_zero.1 hpos)
        rw [List.getElem?_cons_succ] at hline
        rw [← closesFrontMatter_iff, h line (List.mem_of_getElem? hline)]
        exact Bool.false_ne_true
      · rintro (h | h)
        · exact absurd (opensFrontMatter_iff.1 hopens) (h first rfl)
        · intro line hline
          obtain ⟨i, hi⟩ := List.getElem?_of_mem hline
          rw [Bool.eq_false_iff, ne_eq, closesFrontMatter_iff]
          exact h (i + 1) (Nat.succ_pos i) line (by rw [List.getElem?_cons_succ, hi])
    · rw [if_neg hopens]
      refine iff_of_true rfl (.inl fun line hline => ?_)
      cases hline
      rwa [← opensFrontMatter_iff]

/-! ## Lines of the body -/

theorem length_of_closingLine? {ls : List (List Char)} {close : Nat}
    (h : closingLine? ls = some close) : close < ls.length := by
  obtain ⟨_, hline, -⟩ := (closingLine?_eq_some_iff.1 h).closes
  exact (List.getElem?_eq_some_iff.1 hline).1

/-- The lines of the body: those of front matter up to the line `close` are emptied. -/
def bodyLines (ls : List (List Char)) (close : Nat) : List (List Char) :=
  List.replicate (close + 1) [] ++ ls.drop (close + 1)

theorem toList_bodyBehind : (bodyBehind lines close).toList = joinLines (bodyLines lines close) :=
  String.toList_ofList

theorem length_bodyLines (h : close < lines.length) :
    (bodyLines lines close).length = lines.length := by
  rw [bodyLines, List.length_append, List.length_replicate, List.length_drop]
  omega

/-- The lines of the body have no characters but those of the text. -/
theorem mem_of_mem_bodyLines {cs l : List Char} (h : l ∈ bodyLines (cutOn '\n' cs) close) :
    ∀ c ∈ l, c ∈ cs ∧ (c == '\n') = false := by
  rcases List.mem_append.1 h with h | h
  · rw [List.eq_of_mem_replicate h]
    exact List.forall_mem_nil _
  · exact mem_of_mem_cut (List.mem_of_mem_drop h)

theorem cutOn_joinLines_bodyLines (cs : List Char) (close : Nat) :
    cutOn '\n' (joinLines (bodyLines (cutOn '\n' cs) close)) = bodyLines (cutOn '\n' cs) close :=
  cut_intercalate (List.append_ne_nil_of_left_ne_nil (by simp) _)
    (fun _ hl c hc => (mem_of_mem_bodyLines hl c hc).2) BEq.rfl

theorem getElem?_bodyLines_of_le {i : Nat} (h : i ≤ close) :
    (bodyLines lines close)[i]? = some [] := by
  rw [bodyLines, List.getElem?_append_left (by rw [List.length_replicate]; omega),
    List.getElem?_replicate_of_lt (by omega)]

theorem getElem?_bodyLines_of_lt {i : Nat} (h : close < i) :
    (bodyLines lines close)[i]? = lines[i]? := by
  rw [bodyLines, List.getElem?_append_right (by rw [List.length_replicate]; omega),
    List.length_replicate, List.getElem?_drop, Nat.add_sub_cancel' (by omega)]

/-- The body begins with an empty line, which opens no front matter. -/
theorem closingLine?_bodyLines : closingLine? (bodyLines lines close) = none := by
  refine closingLine?_eq_none_iff.2 (.inl fun line hline => ?_)
  rw [getElem?_bodyLines_of_le (Nat.zero_le close)] at hline
  cases hline
  exact nofun

/-! ## Splitting -/

theorem splitFrontMatter_eq_self (h : closingLine? (cutOn '\n' text.toList) = none) :
    splitFrontMatter text = .ok (none, text) := by
  simp only [splitFrontMatter, h]

/-- A text that is split has no front matter, or that before the line that closes it. -/
theorem splitFrontMatter_eq_ok {frontMatter : Option FrontMatter} {body : String}
    (h : splitFrontMatter text = .ok (frontMatter, body)) :
    closingLine? (cutOn '\n' text.toList) = none ∧ frontMatter = none ∧ body = text ∨
      ∃ close f, closingLine? (cutOn '\n' text.toList) = some close ∧
        (frontMatter = some f ∧ f.content = contentBefore (cutOn '\n' text.toList) close) ∧
        body = bodyBehind (cutOn '\n' text.toList) close := by
  cases hclose : closingLine? (cutOn '\n' text.toList) with
  | none =>
    rw [splitFrontMatter_eq_self hclose] at h
    cases h
    exact .inl ⟨rfl, rfl, rfl⟩
  | some close =>
    rw [splitFrontMatter_eq hclose] at h
    cases hread : readEntries (contentBefore (cutOn '\n' text.toList) close) with
    | error fault =>
      rw [hread] at h
      cases h
    | ok entries =>
      rw [hread] at h
      cases h
      exact .inr ⟨close, _, rfl, ⟨rfl, rfl⟩, rfl⟩

/-- **What a text is split into.** Without front matter the body is the text. Otherwise the front matter
is what stands before the line that closes it, and the body has the lines of the text, those up to that
line emptied. There is no front matter exactly if no line opens it or none closes it. Of the body
nothing is split off again. -/
structure SplitAs (text : String) (frontMatter : Option FrontMatter) (body : String) : Prop where
  without : frontMatter = none → body = text
  within : ∀ f, frontMatter = some f → ∃ close, ClosesFirst (cutOn '\n' text.toList) close ∧
    f.content = String.ofList (joinLines (((cutOn '\n' text.toList).take close).drop 1)) ∧
    (cutOn '\n' body.toList).length = (cutOn '\n' text.toList).length ∧
    (∀ i ≤ close, (cutOn '\n' body.toList)[i]? = some []) ∧
    ∀ i, close < i → (cutOn '\n' body.toList)[i]? = (cutOn '\n' text.toList)[i]?
  none_iff : frontMatter = none ↔
    (∀ line, (cutOn '\n' text.toList)[0]? = some line → ¬IsOpening line) ∨
      ∀ i, 1 ≤ i → ∀ line, (cutOn '\n' text.toList)[i]? = some line → ¬IsClosing line
  again : splitFrontMatter body = .ok (none, body)

/-- **A text is split at the first line that closes its front matter**, and no line of the body moves. -/
theorem split_splitFrontMatter {frontMatter : Option FrontMatter} {body : String}
    (h : splitFrontMatter text = .ok (frontMatter, body)) : SplitAs text frontMatter body := by
  rcases splitFrontMatter_eq_ok h with ⟨hclose, rfl, rfl⟩ | ⟨close, f, hclose, ⟨rfl, hcontent⟩, rfl⟩
  · exact {
      without := fun _ => rfl
      within := nofun
      none_iff := iff_of_true rfl (closingLine?_eq_none_iff.1 hclose)
      again := splitFrontMatter_eq_self hclose }
  · have hbody : cutOn '\n' (bodyBehind (cutOn '\n' text.toList) close).toList =
        bodyLines (cutOn '\n' text.toList) close := by
      rw [toList_bodyBehind, cutOn_joinLines_bodyLines]
    exact {
      without := nofun
      within := fun _ hf => by
        cases hf
        rw [hbody]
        exact ⟨close, closingLine?_eq_some_iff.1 hclose, hcontent,
          length_bodyLines (length_of_closingLine? hclose),
          fun _ => getElem?_bodyLines_of_le, fun _ => getElem?_bodyLines_of_lt⟩
      none_iff := iff_of_false nofun fun hnone => by
        rw [closingLine?_eq_none_iff.2 hnone] at hclose
        cases hclose
      again := splitFrontMatter_eq_self (by rw [hbody, closingLine?_bodyLines]) }

/-- A text with an empty line between those around its front matter, and another line of dashes. -/
def emptyBlock : String := "--- \n\n...\t\n---\n# A"

theorem split_emptyBlock :
    splitFrontMatter emptyBlock = .ok (some ⟨"", .ok []⟩, "\n\n\n---\n# A") ∧
      SplitAs emptyBlock (some ⟨"", .ok []⟩) "\n\n\n---\n# A" :=
  have h : splitFrontMatter emptyBlock = .ok (some ⟨"", .ok []⟩, "\n\n\n---\n# A") := by cbv
  ⟨h, split_splitFrontMatter h⟩

end Outline

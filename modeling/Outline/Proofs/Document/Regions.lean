import Outline.Proofs.Document.Nesting
import Outline.Proofs.Text.Blank

/-!
# The lines of sections

No line is lost and none is counted twice. Each line is one of a heading, or one of the preamble, or
one of the text of a single section (`count_spans_gaps`). From its heading on, a section reaches to the
line before the next section of the same or of a smaller level; so the lines of subsections lie within
those of the section around them, and sections side by side follow each other (`chained_nest`). Both
hold of every row of headings whose lines are in range, increasing and disjoint
(**`linesShared_sectionsOf`**).

* `spansInOrder_documentEvents`: the headings of a document are such a row;
* `gaps`: the lines that headings leave to the preamble and to the texts of sections;
* `IsTextOf`: a text made of some of the lines;
* `Chained`: sections that follow each other without lines between them;
* `LinesShared`: how the lines of a document are shared among its sections.
-/

namespace Outline

open Markdown (Event SpansInOrder documentEvents documentLines eventLines eventSpans
  eventSpans_documentEvents map_fst_eventSpans normalized)

variable {total last : Nat} {lines : List (List Char)} {spans : List (Nat × Nat)}
  {entries : List Entry} {l : List Section}

/-- The lines of the heading of an entry. -/
def Entry.span (e : Entry) : Nat × Nat := (e.first, e.stop)

theorem map_span_gather (lines : List (List Char)) (events : List Event) :
    (gather lines events).2.map Entry.span = eventSpans events := by
  have hspan : Entry.span = Entry.span ∘ Entry.bare := rfl
  rw [hspan, ← List.map_map, map_bare_gather, eventEntries, eventSpans, List.map_filterMap]
  refine List.filterMap_congr fun event _ => ?_
  cases event <;> rfl

theorem length_numbered (pieces : List (List Char)) :
    ∀ n, (Markdown.numbered n pieces).length = pieces.length := by
  induction pieces with
  | nil => exact fun _ => rfl
  | cons cs rest ih =>
    intro n
    rw [Markdown.numbered, List.length_cons, ih, List.length_cons]

/-- What a character is read as: the one with code 0 is replaced. -/
def readAs (c : Char) : Char := if c == '\x00' then '\uFFFD' else c

theorem apply_readAs {f : Char → Bool} (h : f '\uFFFD' = f '\x00') (c : Char) :
    f (readAs c) = f c := by
  unfold readAs
  by_cases hc : c = '\x00'
  · subst hc
    exact h
  · rw [if_neg (by simpa using hc)]

/-- Without carriage returns, line ends stay as they are. -/
theorem normalized_eq_map {cs : List Char} (h : '\r' ∉ cs) : normalized cs = cs.map readAs := by
  induction cs with
  | nil => rfl
  | cons c cs ih =>
    obtain ⟨hc, hcs⟩ := List.ne_and_not_mem_of_not_mem_cons h
    rw [List.map_cons, ← ih hcs, readAs, normalized, if_neg (by simpa using hc.symm)]
    rintro cs' rfl -
    exact hc rfl

/-- **Without carriage returns, the lines of a text are read one by one.** -/
theorem cutOn_normalized {cs : List Char} (h : '\r' ∉ cs) :
    cutOn '\n' (normalized cs) = (cutOn '\n' cs).map (List.map readAs) := by
  have hfeed : (· == '\n') ∘ readAs = (· == '\n') :=
    funext (apply_readAs (f := (· == '\n')) (by decide))
  rw [normalized_eq_map h, cutOn, cut_map, hfeed, cutOn]

/-! ## Lines between headings -/

/-- The lines that headings leave: from `start` up to the first heading, between the headings, and
behind the last one. -/
def gaps (total : Nat) : (start : Nat) → List (Nat × Nat) → List (Nat × Nat)
  | start, [] => [(start, total)]
  | start, s :: rest => (start, s.1) :: gaps total s.2 rest

/-- Whether a line lies in a region. -/
def inRegion (line : Nat) (r : Nat × Nat) : Bool := r.1 ≤ line && line < r.2

/-- **Each line lies in one region**, that of a heading or one that headings leave. -/
theorem count_spans_gaps (line : Nat) : ∀ {start : Nat}, start ≤ total →
    (∀ s ∈ spans, start ≤ s.1) → SpansInOrder total spans →
      (spans ++ gaps total start spans).countP (inRegion line) =
        if start ≤ line ∧ line < total then 1 else 0 := by
  induction spans with
  | nil =>
    intro start _ _ _
    simp [gaps, inRegion, List.countP_cons]
  | cons s rest ih =>
    intro start _ hstart h
    obtain ⟨hle, -, htotal⟩ := h.inRange s List.mem_cons_self
    have hbefore := hstart s List.mem_cons_self
    have hrest := ih htotal (fun t ht => List.rel_of_pairwise_cons h.disjoint ht) h.tail
    rw [List.countP_append] at hrest ⊢
    simp only [gaps, List.countP_cons, inRegion, Bool.and_eq_true, decide_eq_true_eq]
    -- the line lies before the heading, at the heading, or behind it
    split_ifs at hrest ⊢ <;> omega

/-! ## Texts -/

/-- **A text made of some of the lines**: joined with line feeds, they are the text with line feeds
before and behind it, and the text has none at its ends. -/
structure IsTextOf (lines : List (List Char)) (r : Nat × Nat) (text : String) : Prop where
  joined : ∃ m n, joinLines (lines.extract r.1 r.2) =
    List.replicate m '\n' ++ text.toList ++ List.replicate n '\n'
  head : text.toList.head? ≠ some '\n'
  last : text.toList.getLast? ≠ some '\n'

theorem takeWhile_eq_replicate (c : Char) (cs : List Char) :
    cs.takeWhile (· == c) = List.replicate (cs.takeWhile (· == c)).length c :=
  List.eq_replicate_of_mem fun d hd => by
    have hc := List.mem_takeWhile_imp hd
    exact eq_of_beq hc

theorem trim_eq (c : Char) (cs : List Char) :
    ∃ m n, cs = List.replicate m c ++ trim (· == c) cs ++ List.replicate n c := by
  have hback := congrArg List.reverse (List.takeWhile_append_dropWhile (p := (· == c))
    (l := (cs.dropWhile (· == c)).reverse))
  rw [List.reverse_append, List.reverse_reverse, takeWhile_eq_replicate, List.reverse_replicate]
    at hback
  refine ⟨(cs.takeWhile (· == c)).length,
    ((cs.dropWhile (· == c)).reverse.takeWhile (· == c)).length, ?_⟩
  calc cs = cs.takeWhile (· == c) ++ cs.dropWhile (· == c) :=
        List.takeWhile_append_dropWhile.symm
    _ = _ := by rw [← takeWhile_eq_replicate, List.append_assoc]; exact congrArg _ hback.symm

theorem isTextOf_region (lines : List (List Char)) (first stop : Nat) :
    IsTextOf lines (first, stop) (region lines first stop) := by
  have htext : (region lines first stop).toList =
      trim (· == '\n') (joinLines (lines.extract first stop)) := by
    rw [region, String.toList_ofList, List.drop_take]
  have hends := trim_eq_self_iff.1 (trim_trim (· == '\n') (joinLines (lines.extract first stop)))
  refine ⟨htext ▸ trim_eq '\n' _, fun hhead => ?_, fun hlast => ?_⟩
  · rw [htext] at hhead
    exact absurd (hends.1 '\n' hhead) (by decide)
  · rw [htext] at hlast
    exact absurd (hends.2 '\n' hlast) (by decide)

/-- The preamble and the texts of sections are made of the lines that headings leave. -/
theorem forall₂_texts (lines : List (List Char)) (entries : List Entry) : ∀ start : Nat,
    List.Forall₂ (IsTextOf lines) (gaps lines.length start (entries.map Entry.span))
      (region lines start (nextLine lines.length entries) ::
        (flatSections lines entries).map (·.body.text)) := by
  induction entries with
  | nil => exact fun start => .cons (isTextOf_region _ _ _) .nil
  | cons e es ih =>
    intro start
    rw [flatSections, List.map_cons, List.map_cons, text_sectionOf]
    exact .cons (isTextOf_region _ _ _) (ih e.stop)

/-! ## Ends -/

/-- The line before the next section that is not deeper than a level, or the last line. -/
def endBefore (total level : Nat) (later : List Section) : Nat :=
  ((later.find? (·.heading.level ≤ level)).map fun t => t.startLine - 1).getD total

theorem endBefore_flatSections (level : Nat) (entries : List Entry) :
    endBefore lines.length level (flatSections lines entries) =
      endLineOf lines.length level entries := by
  unfold endBefore endLineOf
  induction entries with
  | nil => rfl
  | cons e es ih =>
    rw [flatSections, List.find?_cons, List.find?_cons]
    have hlevel : (sectionOf lines e es).heading.level = e.level := rfl
    rw [hlevel]
    cases decide (e.level ≤ level) with
    | true => rfl
    | false => exact ih

theorem endLineOf_le (h : ∀ e ∈ entries, e.first < total) (level : Nat) :
    endLineOf total level entries ≤ total := by
  unfold endLineOf
  split
  · rename_i e he
    exact (h e (List.mem_of_find?_eq_some he)).le
  · exact le_rfl

/-- **A section reaches to the line before the next one of the same or of a smaller level.** -/
theorem endLine_flatSections (h : SpansInOrder lines.length (entries.map Entry.span)) :
    ∀ {before later : List Section} {s : Section},
      flatSections lines entries = before ++ s :: later →
        s.startLine ≤ s.body.endLine ∧ s.body.endLine ≤ lines.length ∧
          s.body.endLine = endBefore lines.length s.heading.level later := by
  induction entries with
  | nil => intro before later s hs; cases before <;> cases hs
  | cons e es ih =>
    intro before later s hs
    cases before with
    | cons b before => exact ih h.tail (List.cons.inj hs).2
    | nil =>
      obtain ⟨rfl, rfl⟩ := List.cons.inj hs
      rw [endBefore_flatSections]
      have hfirst : e.first < lines.length := (h.inRange _ List.mem_cons_self).2.1
      have hrange : ∀ e' ∈ es, e'.first < lines.length := fun e' he' =>
        (h.tail.inRange _ (List.mem_map_of_mem he')).2.1
      have hbehind : e.first + 1 ≤ endLineOf lines.length e.level es := by
        unfold endLineOf
        split
        · rename_i e' he'
          exact List.rel_of_pairwise_cons h.increasing
            (List.mem_map_of_mem (List.mem_of_find?_eq_some he'))
        · exact hfirst
      have hend : (sectionOf lines e es).body.endLine = endLineOf lines.length e.level es :=
        max_eq_left hbehind
      exact ⟨hend ▸ hbehind, hend ▸ endLineOf_le hrange e.level, hend⟩

/-! ## Sections side by side -/

/-- The line before the first one of some sections, or the line `last`. -/
def lineBefore (last : Nat) : List Section → Nat
  | [] => last
  | t :: _ => t.startLine - 1

/-- **Sections that follow each other without lines between them**: each reaches to the line before
the next one, and the last of them to the line `last`; and so on inside of them. -/
inductive Chained : (last : Nat) → List Section → Prop
  | nil {last : Nat} : Chained last []
  | cons {last : Nat} {s : Section} {rest : List Section}
      (reaches : s.body.endLine = lineBefore last rest)
      (below : Chained s.body.endLine s.children) (behind : Chained last rest) :
      Chained last (s :: rest)

namespace Chained

/-- Sections at the front of others reach to the line before those. -/
theorem split {p : Section → Bool} (h : Chained last l) :
    Chained (lineBefore last (l.dropWhile p)) (l.takeWhile p) ∧ Chained last (l.dropWhile p) := by
  induction h with
  | nil => exact ⟨.nil, .nil⟩
  | @cons last s rest reaches below hrest _ ih =>
    rw [List.takeWhile_cons, List.dropWhile_cons]
    cases hs : p s with
    | false => exact ⟨.nil, .cons reaches below hrest⟩
    | true =>
      refine ⟨.cons (reaches.trans ?_) below ih.1, ih.2⟩
      cases rest with
      | nil => rfl
      | cons t ts =>
        rw [List.takeWhile_cons, List.dropWhile_cons]
        cases p t <;> rfl

/-- In each section of the tree, the subsections follow each other up to its end. -/
theorem children (h : Chained last l) : ∀ s ∈ walkAll l, Chained s.body.endLine s.children := by
  induction h with
  | nil => exact fun _ hs => absurd hs List.not_mem_nil
  | @cons last s rest _ below _ ihbelow ihrest =>
    rw [walkAll_cons]
    intro t ht
    rcases List.mem_cons.1 ht with rfl | ht
    · exact below
    · rcases List.mem_append.1 ht with ht | ht
      · exact ihbelow t ht
      · exact ihrest t ht

/-- The sections end in the order in which they begin, and none of them behind the line `last`. -/
theorem inOrder (h : Chained last l) (hstart : ∀ s ∈ l, 0 < s.startLine)
    (hend : ∀ s ∈ l, s.startLine ≤ s.body.endLine)
    (hline : l.Pairwise fun s t => s.startLine < t.startLine) :
    (∀ s ∈ l, s.body.endLine ≤ last) ∧
      l.Pairwise fun s t => s.body.endLine < t.startLine := by
  induction h with
  | nil => exact ⟨fun _ hs => absurd hs List.not_mem_nil, .nil⟩
  | @cons last s rest reaches _ _ _ ih =>
    obtain ⟨-, hstart⟩ := List.forall_mem_cons.1 hstart
    obtain ⟨-, hend⟩ := List.forall_mem_cons.1 hend
    obtain ⟨hle, hpairs⟩ := ih hstart hend hline.of_cons
    rw [List.forall_mem_cons, List.pairwise_cons]
    cases rest with
    | nil => exact ⟨⟨reaches.le, hle⟩, fun _ hs => absurd hs List.not_mem_nil, hpairs⟩
    | cons t ts =>
      have hreach : s.body.endLine = t.startLine - 1 := reaches
      have ht := hstart t List.mem_cons_self
      have hlast := (hend t List.mem_cons_self).trans (hle t List.mem_cons_self)
      refine ⟨⟨by omega, hle⟩, List.forall_mem_cons.2 ⟨by omega, fun u hu => ?_⟩, hpairs⟩
      have htu := List.rel_of_pairwise_cons hline.of_cons hu
      omega

end Chained

/-- Among sections that are nested, the first one that is not deeper than a level stands at the
top. -/
theorem find?_nest (level : Nat) (sections : List Section) :
    ((nest sections).find? (·.heading.level ≤ level)).map Section.startLine =
      (sections.find? (·.heading.level ≤ level)).map Section.startLine := by
  induction sections with
  | nil => rfl
  | cons s rest ih =>
    have hnest : nest (s :: rest) = adopt s (nest rest) := rfl
    rw [hnest, adopt, List.find?_cons, List.find?_cons]
    by_cases hs : s.heading.level ≤ level
    · simp only [hs, decide_true]
      rfl
    · simp only [hs, decide_false]
      rw [← ih]
      -- those that `s` adopts are deeper than `s`
      have hnone : ((nest rest).takeWhile fun t => s.heading.level < t.heading.level).find?
          (·.heading.level ≤ level) = none := by
        refine List.find?_eq_none.2 fun t ht => ?_
        have hdeeper := List.mem_takeWhile_imp ht
        rw [decide_eq_true_eq] at hdeeper ⊢
        omega
      conv_rhs => rw [← List.takeWhile_append_dropWhile (l := nest rest)
        (p := fun t => s.heading.level < t.heading.level), List.find?_append, hnone, Option.none_or]

theorem lineBefore_dropWhile (level : Nat) (sections : List Section) :
    lineBefore total ((nest sections).dropWhile fun t => level < t.heading.level) =
      endBefore total level sections := by
  have hfind : (nest sections).find? (·.heading.level ≤ level) =
      ((nest sections).dropWhile fun t => level < t.heading.level).head? := by
    rw [List.find?_eq_head?_dropWhile_not]
    simp only [decide_not.symm, Nat.not_le]
  have hline := find?_nest level sections
  rw [hfind] at hline
  unfold endBefore
  have hmap : (fun t : Section => t.startLine - 1) = (· - 1) ∘ Section.startLine := rfl
  rw [hmap, ← Option.map_map, ← hline]
  cases (nest sections).dropWhile fun t => level < t.heading.level <;> rfl

/-- **Nested sections follow each other without lines between them.** -/
theorem chained_nest (h : ∀ before s later, l = before ++ s :: later →
    s.body.endLine = endBefore total s.heading.level later) : Chained total (nest l) := by
  induction l with
  | nil => exact .nil
  | cons s rest ih =>
    have hnest : nest (s :: rest) = adopt s (nest rest) := rfl
    have hends := h [] s rest rfl
    obtain ⟨hfront, hback⟩ := (ih fun before t later hl => h (s :: before) t later (by
      rw [hl, List.cons_append])).split (p := fun t => s.heading.level < t.heading.level)
    rw [lineBefore_dropWhile, ← hends] at hfront
    rw [hnest]
    exact .cons (hends.trans (lineBefore_dropWhile _ _).symm) hfront hback

/-! ## Documents -/

/-- **How the lines of a document are shared among its sections.** The walk has one section for each
heading, at its first line. Each line is one of a heading, of the preamble, or of the text of one
section, which are made of these lines. A section reaches from the line of its heading to the line
before the next section of the same or of a smaller level, or to the last line. Subsections lie within
the section around them, sections at the top within the document, and sections side by side follow each
other. -/
structure LinesShared (lines : List (List Char)) (spans : List (Nat × Nat)) (preamble : Body)
    (sections : List Section) : Prop where
  starts : (walkAll sections).map Section.startLine = spans.map (·.1 + 1)
  once : ∀ line, (spans ++ gaps lines.length 0 spans).countP (inRegion line) =
    if line < lines.length then 1 else 0
  texts : List.Forall₂ (IsTextOf lines) (gaps lines.length 0 spans)
    (preamble.text :: (walkAll sections).map (·.body.text))
  whole : preamble.startLine = 1 ∧ preamble.endLine = lines.length
  reaches : ∀ before s later, walkAll sections = before ++ s :: later →
    s.body.endLine = endBefore lines.length s.heading.level later
  inRange : ∀ s ∈ walkAll sections,
    0 < s.startLine ∧ s.startLine ≤ s.body.endLine ∧ s.body.endLine ≤ lines.length
  within : ∀ s ∈ walkAll sections, ∀ t ∈ s.children,
    s.startLine < t.startLine ∧ t.body.endLine ≤ s.body.endLine
  apart : sections.Pairwise (fun s t => s.body.endLine < t.startLine) ∧
    ∀ s ∈ walkAll sections, s.children.Pairwise fun s t => s.body.endLine < t.startLine

/-- A text without carriage returns has no fewer lines than the blocks are read from. -/
theorem length_documentLines_le {body : List Char} (h : '\r' ∉ body) :
    (documentLines body).length ≤ (cutOn '\n' body).length := by
  have hlength : (cutOn '\n' (normalized body)).length = (cutOn '\n' body).length := by
    rw [cutOn_normalized h, List.length_map]
  rw [documentLines, length_numbered, ← hlength]
  split
  · rw [List.length_dropLast]
    exact Nat.sub_le _ _
  · exact le_rfl

/-- **The headings of a document stand on its lines.** -/
theorem spansInOrder_documentEvents {body : List Char} (h : '\r' ∉ body) :
    SpansInOrder (cutOn '\n' body).length (eventSpans (documentEvents body)) :=
  ((eventSpans_documentEvents body).widen le_rfl (length_documentLines_le h)).inOrder.1

/-- A split of the walk over nested sections is one of the row of sections. -/
theorem split_of_walkAll_nest {sections before later : List Section} {s : Section}
    (h : walkAll (nest sections) = before ++ s :: later) : ∃ before' s' later',
      sections = before' ++ s' :: later' ∧ s'.bare = s.bare ∧
        later'.map Section.bare = later.map Section.bare := by
  have hmap := (map_bare_nest sections).symm
  rw [h, List.map_append, List.map_cons] at hmap
  obtain ⟨before', behind, rfl, -, hbehind⟩ := List.map_eq_append_iff.1 hmap
  obtain ⟨s', later', rfl, hs, hlater⟩ := List.map_eq_cons_iff.1 hbehind
  exact ⟨before', s', later', rfl, hs, hlater⟩

theorem endBefore_congr {later later' : List Section}
    (h : later'.map Section.bare = later.map Section.bare) (level : Nat) :
    endBefore total level later' = endBefore total level later := by
  have hbare : ∀ l : List Section, endBefore total level l =
      endBefore total level (l.map Section.bare) := by
    intro l
    unfold endBefore
    rw [List.find?_map, Option.map_map]
    rfl
  rw [hbare, h, ← hbare]

/-- **No line is lost and none is counted twice**, whatever the levels of the headings are and
wherever they stand, as long as their lines are in range, increasing and disjoint. -/
theorem linesShared_sectionsOf (body : List Char) {events : List Event}
    (h : SpansInOrder (cutOn '\n' body).length (eventSpans events)) :
    LinesShared (cutOn '\n' body) (eventSpans events) (sectionsOf (cutOn '\n' body) events).1
      (sectionsOf (cutOn '\n' body) events).2 := by
  generalize cutOn '\n' body = lines at h ⊢
  have hlines : (eventLines events).Pairwise (· < ·) := by
    rw [← map_fst_eventSpans, List.pairwise_map]
    exact h.increasing
  have hreg := regular_sectionsOf lines hlines
  have hspans := map_span_gather lines events
  have hpre : (sectionsOf lines events).1 =
      ⟨1, lines.length, region lines 0 (nextLine lines.length (gather lines events).2),
        (gather lines events).1⟩ := by
    unfold sectionsOf
    dsimp only
    cases (gather lines events).2 <;> rfl
  have hnest : (sectionsOf lines events).2 =
      nest (flatSections lines (gather lines events).2) := rfl
  rw [hnest] at hreg
  rw [hpre, hnest]
  rw [← hspans] at h ⊢
  generalize (gather lines events).2 = entries at h hreg ⊢
  have hflat : ∀ before s later, walkAll (nest (flatSections lines entries)) =
      before ++ s :: later → s.startLine ≤ s.body.endLine ∧ s.body.endLine ≤ lines.length ∧
        s.body.endLine = endBefore lines.length s.heading.level later := by
    intro before s later hs
    obtain ⟨before', s', later', hsplit, hbare, hlater⟩ := split_of_walkAll_nest hs
    obtain ⟨heading, body, children⟩ := s
    obtain ⟨heading', body', children'⟩ := s'
    obtain ⟨rfl, rfl⟩ : heading' = heading ∧ body' = body :=
      ⟨congrArg Section.heading hbare, congrArg Section.body hbare⟩
    rw [← endBefore_congr hlater]
    have hends := endLine_flatSections h hsplit
    exact hends
  have hrange : ∀ s ∈ walkAll (nest (flatSections lines entries)),
      0 < s.startLine ∧ s.startLine ≤ s.body.endLine ∧ s.body.endLine ≤ lines.length := by
    intro s hs
    obtain ⟨before, later, hsplit⟩ := List.append_of_mem hs
    obtain ⟨hle, htotal, -⟩ := hflat before s later hsplit
    exact ⟨hreg.positive s hs, hle, htotal⟩
  have hchained : Chained lines.length (nest (flatSections lines entries)) :=
    chained_nest fun before s later hs => (endLine_flatSections h hs).2.2
  have htop : ∀ s ∈ walkAll (nest (flatSections lines entries)), ∀ t ∈ s.children,
      t ∈ walkAll (nest (flatSections lines entries)) := fun s hs t ht =>
    mem_walkAll_children hs ht
  have hinOrder : ∀ s ∈ walkAll (nest (flatSections lines entries)),
      (∀ t ∈ s.children, t.body.endLine ≤ s.body.endLine) ∧
        s.children.Pairwise fun s t => s.body.endLine < t.startLine := fun s hs =>
    (hchained.children s hs).inOrder (fun t ht => hreg.positive t (htop s hs t ht))
      (fun t ht => (hrange t (htop s hs t ht)).2.1)
      (hreg.below hs).siblings
  refine {
    starts := ?_
    once := fun line => ?_
    texts := ?_
    whole := ⟨rfl, rfl⟩
    reaches := fun before s later hs => (hflat before s later hs).2.2
    inRange := hrange
    within := fun s hs t ht => ⟨?_, (hinOrder s hs).1 t ht⟩
    apart := ⟨?_, fun s hs => (hinOrder s hs).2⟩ }
  · have hstart : (walkAll (nest (flatSections lines entries))).map Section.startLine =
        (flatSections lines entries).map Section.startLine := map_nest (fun _ => rfl) _
    have hmark := congrArg (List.map (·.2.2)) (map_mark_flatSections lines entries)
    rw [List.map_map, List.map_map] at hmark
    rw [hstart, List.map_map]
    exact hmark
  · rw [count_spans_gaps line (Nat.zero_le _) (fun _ _ => Nat.zero_le _) h]
    simp only [Nat.zero_le, true_and]
  · have htext : (walkAll (nest (flatSections lines entries))).map (·.body.text) =
        (flatSections lines entries).map (·.body.text) := map_nest (fun _ => rfl) _
    rw [htext]
    exact forall₂_texts lines entries 0
  · exact hreg.startLine_lt hs ht
  · exact (hchained.inOrder (fun s hs => hreg.positive s ((sublist_walkAll _).subset hs))
      (fun s hs => (hrange s ((sublist_walkAll _).subset hs)).2.1) hreg.siblings).2

/-- A body with the headings of `deepEvents`. -/
def deepBody : List Char := "### A\n\nB\n--\n#### C\nc\n### D\n\n# E\n## F\n\nf\n".toList

theorem linesShared_deep :
    SpansInOrder (cutOn '\n' deepBody).length (eventSpans deepEvents) ∧
      LinesShared (cutOn '\n' deepBody) (eventSpans deepEvents)
        (sectionsOf (cutOn '\n' deepBody) deepEvents).1
        (sectionsOf (cutOn '\n' deepBody) deepEvents).2 :=
  have h : SpansInOrder (cutOn '\n' deepBody).length (eventSpans deepEvents) :=
    ⟨by decide, by decide, by decide⟩
  ⟨h, linesShared_sectionsOf deepBody h⟩

end Outline

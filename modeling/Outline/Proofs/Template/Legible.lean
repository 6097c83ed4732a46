import Outline.Document.Event
import Outline.Document.FrontMatter
import Outline.Proofs.Template.Placeholder
import Outline.Proofs.Text.Find

/-!
# Reading pieces of templates

**The text of pieces is read as the blocks of its headings and placeholders**
(`Legible.blocksOf_textOf`), if they end with an empty line and nothing but a heading follows a
list. Comments are not read as anything.

* `Legible`: pieces that can be read back;
* `blocksFrom`, `eventsFrom`: what they are read as;
* `textOf`: their text.
-/

namespace Outline

open Markdown

/-! ## Parts -/

/-- A text that can stand in a comment: it has no control characters, and no bars. -/
def Quiet (text : String) : Prop := ∀ c ∈ text.toList, 32 ≤ c.toNat ∧ c ≠ '|'

instance (text : String) : Decidable (Quiet text) :=
  inferInstanceAs (Decidable (∀ c ∈ text.toList, 32 ≤ c.toNat ∧ c ≠ '|'))

/-- Nothing but the end or a heading stands at the front. -/
def HeadingFirst (ps : List TemplatePart) : Prop := ∀ q ∈ ps.head?, ∃ text, q = .line text

/-- **Pieces of a template that can be read back**: headings, comments, empty lines and
placeholders, with an empty line at the end. Nothing but a heading follows a list. -/
inductive Legible : List TemplatePart → Prop
  | nil : Legible []
  | heading {level : Nat} {title : List Char} {ps : List TemplatePart} (hpos : 1 ≤ level)
      (hmax : level ≤ 6) (title_plain : PlainText title) (title_some : title ≠ [])
      (more : ps ≠ []) (rest : Legible ps) :
      Legible (.line (writtenHeading level (String.ofList title)) :: ps)
  | comment {text : String} {ps : List TemplatePart} (quiet : Quiet text) (more : ps ≠ [])
      (rest : Legible ps) : Legible (.comment text :: ps)
  | gap {ps : List TemplatePart} (rest : Legible ps) : Legible (.gap :: ps)
  | placeholder {p : Placeholder} {ps : List TemplatePart} (legible : p.Legible)
      (alone : ∀ ordered items, p = .list ordered items → HeadingFirst ps)
      (rest : Legible ps) : Legible (.placeholder p :: ps)

namespace TemplatePart

/-- The lines of a piece as characters. -/
def charLines (p : TemplatePart) : List (List Char) := p.lines.map String.toList

/-- The blocks that a piece is read as. -/
def blocks (number : Nat) : TemplatePart → List Block
  | .line text =>
    match atx? text.toList with
    | some (level, title) => [.heading level number (number + 1) (number + 1) title]
    | none => []
  | .comment _ => []
  | .gap => []
  | .placeholder p => [p.block number]

end TemplatePart

/-- The blocks that pieces are read as, the first of which begins at a line. -/
def blocksFrom : (number : Nat) → List TemplatePart → List Block
  | _, [] => []
  | n, p :: ps => p.blocks n ++ blocksFrom (n + p.lines.length) ps

/-- The lines of pieces as characters. -/
def charLinesOf (ps : List TemplatePart) : List (List Char) := ps.flatMap TemplatePart.charLines

/-! ## Reading pieces -/

theorem edgeLines_append (number : Nat) (css dss : List (List Char)) :
    edgeLines number (css ++ dss) =
      edgeLines number css ++ edgeLines (number + css.length) dss := by
  induction css generalizing number with
  | nil => rfl
  | cons cs css ih =>
    rw [List.cons_append, edgeLines, ih, edgeLines, List.cons_append, List.length_cons,
      Nat.add_right_comm, ← Nat.add_assoc]

theorem charLines_placeholder (p : Placeholder) :
    (TemplatePart.placeholder p).charLines = p.charLines ++ [[]] := by
  rw [TemplatePart.charLines, TemplatePart.lines, List.map_append]
  rfl

theorem length_charLines (p : TemplatePart) : p.charLines.length = p.lines.length :=
  List.length_map _

theorem toList_writtenHeading (level : Nat) (title : List Char) :
    (writtenHeading level (String.ofList title)).toList =
      List.replicate level '#' ++ ' ' :: title := by
  rw [writtenHeading, String.toList_ofList, String.toList_ofList]

theorem toList_comment (text : String) :
    ("<!-- " ++ text ++ " -->").toList =
      '<' :: '!' :: '-' :: '-' :: ' ' :: (text.toList ++ [' ', '-', '-', '>']) := by
  rw [String.toList_append, String.toList_append]
  rfl

theorem charLinesOf_eq_nil_iff {ps : List TemplatePart} : charLinesOf ps = [] ↔ ps = [] := by
  cases ps with
  | nil => exact iff_of_true rfl rfl
  | cons p ps =>
    refine iff_of_false (fun h => ?_) (List.cons_ne_nil _ _)
    rw [charLinesOf, List.flatMap_cons, List.append_eq_nil_iff] at h
    cases p with
    | placeholder p => simp [charLines_placeholder] at h
    | _ => cases h.1

theorem charLinesOf_cons (p : TemplatePart) (ps : List TemplatePart) :
    charLinesOf (p :: ps) = p.charLines ++ charLinesOf ps := rfl

namespace Legible

/-- The first line of pieces that begin with a heading begins no item. -/
theorem marker?_of_headingFirst {ps : List TemplatePart} (h : Legible ps) (hfirst : HeadingFirst ps)
    {cs : List Char} {css : List (List Char)} (hcs : charLinesOf ps = cs :: css) :
    cs ≠ [] ∧ marker? cs = none := by
  cases h with
  | nil => cases hcs
  | @heading level title ps hpos =>
    rw [charLinesOf_cons, TemplatePart.charLines, TemplatePart.lines, List.map_singleton,
      toList_writtenHeading, List.singleton_append, List.cons.injEq] at hcs
    obtain ⟨n, rfl⟩ : ∃ n, level = n + 1 := ⟨level - 1, by omega⟩
    rw [← hcs.1]
    exact ⟨List.cons_ne_nil _ _, marker?_of_beginsText (by decide) _⟩
  | comment =>
    obtain ⟨text, htext⟩ := hfirst _ rfl
    cases htext
  | gap =>
    obtain ⟨text, htext⟩ := hfirst _ rfl
    cases htext
  | placeholder =>
    obtain ⟨text, htext⟩ := hfirst _ rfl
    cases htext

/-- An empty line before pieces. -/
theorem reads_gap {ps : List TemplatePart} {number : Nat}
    (h : Reads (edgeLines (number + 1) (charLinesOf ps).dropLast) (blocksFrom (number + 1) ps)) :
    Reads (edgeLines number ([] :: charLinesOf ps).dropLast) (blocksFrom (number + 1) ps) := by
  by_cases hnil : charLinesOf ps = []
  · obtain rfl := charLinesOf_eq_nil_iff.1 hnil
    exact Reads.nil
  · rw [List.dropLast_cons_of_ne_nil hnil, edgeLines]
    exact (Reads.blank_iff rfl).2 h

/-- What stands behind a placeholder does not go on with it. -/
theorem endsBefore {p : Placeholder} {ps : List TemplatePart} (h : Legible ps)
    (alone : ∀ ordered items, p = .list ordered items → HeadingFirst ps) (number : Nat) :
    p.EndsBefore (edgeLines number ([] :: charLinesOf ps).dropLast) := by
  have hblank : ∀ l ∈ (edgeLines number ([] :: charLinesOf ps).dropLast).head?,
      l.isBlank = true := by
    cases hcss : charLinesOf ps with
    | nil => exact fun l hl => absurd hl (by simp [edgeLines])
    | cons cs css =>
      intro l hl
      rw [List.dropLast_cons_of_ne_nil (List.cons_ne_nil _ _), edgeLines] at hl
      rw [← Option.mem_some.1 hl]
      rfl
  refine ⟨hblank, fun ordered items hp => ⟨indent_edgeLines, hblank, fun l hl => ?_⟩⟩
  cases hcss : charLinesOf ps with
  | nil =>
    rw [hcss] at hl
    cases hl
  | cons cs css =>
    obtain ⟨hsome, hmarker⟩ := h.marker?_of_headingFirst (alone ordered items hp) hcss
    rw [hcss, List.dropLast_cons_of_ne_nil (List.cons_ne_nil _ _), edgeLines,
      List.dropWhile_cons_of_pos (by rfl)] at hl
    cases css with
    | nil => cases hl
    | cons ds css =>
      rw [List.dropLast_cons_of_ne_nil (List.cons_ne_nil _ _), edgeLines,
        List.dropWhile_cons_of_neg (by simpa [isBlank_edgeLine] using hsome)] at hl
      rw [← Option.mem_some.1 hl]
      exact hmarker

/-- **What is read from the lines of legible pieces**, the last of which is empty and left out. -/
theorem reads {ps : List TemplatePart} (h : Legible ps) : ∀ {number : Nat},
    Reads (edgeLines number (charLinesOf ps).dropLast) (blocksFrom number ps) := by
  -- A piece of one line has others behind it, so the line that is left out is never its own.
  induction h with
  | nil => exact Reads.nil
  | @heading level title ps hpos hmax hplain hsome more rest ih =>
    intro number
    have hline : (TemplatePart.line (writtenHeading level (String.ofList title))).charLines =
        [List.replicate level '#' ++ ' ' :: title] :=
      congrArg (fun cs => [cs]) (toList_writtenHeading level title)
    have hblocks : blocksFrom number (.line (writtenHeading level (String.ofList title)) :: ps) =
        .heading level number (number + 1) (number + 1) title :: blocksFrom (number + 1) ps := by
      rw [blocksFrom, TemplatePart.blocks, toList_writtenHeading,
        atx?_written hpos hmax (hplain.headingText hsome)]
      rfl
    rw [charLinesOf_cons, hline, List.singleton_append,
      List.dropLast_cons_of_ne_nil (mt charLinesOf_eq_nil_iff.1 more), hblocks]
    exact Reads.heading hpos hmax (hplain.headingText hsome) hplain.bar ih
  | @comment text ps quiet more rest ih =>
    intro number
    have hline : (TemplatePart.comment text).charLines =
        ['<' :: '!' :: '-' :: '-' :: ' ' :: (text.toList ++ [' ', '-', '-', '>'])] :=
      congrArg (fun cs => [cs]) (toList_comment text)
    have hend : Text.contains
        ('<' :: '!' :: '-' :: '-' :: ' ' :: (text.toList ++ [' ', '-', '-', '>']))
        ['-', '-', '>'] = true :=
      Text.contains_iff.2 ⟨'<' :: '!' :: '-' :: '-' :: ' ' :: (text.toList ++ [' ']), [], by simp⟩
    have hbar : '|' ∉ ' ' :: (text.toList ++ [' ', '-', '-', '>']) := by
      simp only [List.mem_cons, List.mem_append, List.not_mem_nil, or_false, not_or]
      exact ⟨by decide, fun h => (quiet _ h).2 rfl, by decide, by decide, by decide, by decide⟩
    rw [charLinesOf_cons, hline, List.singleton_append,
      List.dropLast_cons_of_ne_nil (mt charLinesOf_eq_nil_iff.1 more)]
    exact Reads.comment hend hbar ih
  | gap rest ih => exact reads_gap ih
  | @placeholder p ps legible alone rest ih =>
    intro number
    have hgap : Reads (edgeLines (number + p.charLines.length) ([] :: charLinesOf ps).dropLast)
        (blocksFrom (number + p.charLines.length + 1) ps) := reads_gap ih
    have hdrop : (charLinesOf (.placeholder p :: ps)).dropLast =
        p.charLines ++ ([] :: charLinesOf ps).dropLast := by
      rw [charLinesOf_cons, charLines_placeholder, List.append_assoc, List.singleton_append,
        List.dropLast_append_of_ne_nil (List.cons_ne_nil _ _)]
    have hblocks : blocksFrom number (.placeholder p :: ps) =
        p.block number :: blocksFrom (number + p.charLines.length + 1) ps := by
      rw [blocksFrom, ← length_charLines, charLines_placeholder, List.length_append]
      rfl
    rw [hdrop, edgeLines_append, hblocks]
    exact Placeholder.reads legible (endsBefore rest alone _) hgap

/-! ## Texts -/

theorem getLast?_charLinesOf {ps : List TemplatePart} (h : Legible ps) :
    ∀ cs ∈ (charLinesOf ps).getLast?, cs = [] := by
  have hbehind : ∀ (l : List (List Char)) {ps : List TemplatePart}, ps ≠ [] →
      (∀ cs ∈ (charLinesOf ps).getLast?, cs = []) →
      ∀ cs ∈ (l ++ charLinesOf ps).getLast?, cs = [] := fun l ps hps ih => by
    rwa [List.getLast?_append_of_ne_nil _ (mt charLinesOf_eq_nil_iff.1 hps)]
  induction h with
  | nil => exact fun _ h => absurd h (by simp [charLinesOf])
  | heading _ _ _ _ more _ ih => exact hbehind _ more ih
  | comment _ more _ ih => exact hbehind _ more ih
  | @gap ps _ ih =>
    by_cases hps : ps = []
    · rw [hps]
      exact fun cs hcs => (Option.mem_some.1 hcs).symm
    · exact hbehind _ hps ih
  | @placeholder p ps _ _ _ ih =>
    by_cases hps : ps = []
    · rw [hps, charLinesOf_cons, charLines_placeholder, charLinesOf, List.flatMap_nil,
        List.append_nil, List.getLast?_concat]
      exact fun cs hcs => (Option.mem_some.1 hcs).symm
    · exact hbehind _ hps ih

theorem textLine_heading {level : Nat} (hpos : 1 ≤ level) {title : List Char}
    (h : PlainText title) : TextLine (List.replicate level '#' ++ ' ' :: title) := by
  obtain ⟨n, rfl⟩ : ∃ n, level = n + 1 := ⟨level - 1, by omega⟩
  rw [List.replicate_succ, List.cons_append]
  refine .cons (by decide) (by decide) fun c hc => ?_
  rcases List.mem_append.1 hc with hc | hc
  · rw [List.eq_of_mem_replicate hc]
    decide
  · rcases List.mem_cons.1 hc with rfl | hc
    · decide
    · exact h.written c hc

theorem textLine_comment {text : String} (h : Quiet text) :
    TextLine ('<' :: '!' :: '-' :: '-' :: ' ' :: (text.toList ++ [' ', '-', '-', '>'])) := by
  refine .cons (by decide) (by decide) fun c hc => ?_
  simp only [List.mem_cons, List.mem_append, List.not_mem_nil, or_false] at hc
  rcases hc with rfl | rfl | rfl | rfl | hc | rfl | rfl | rfl | rfl
  case inr.inr.inr.inr.inl => exact (h c hc).1
  all_goals decide

theorem textLine_of_mem {ps : List TemplatePart} (h : Legible ps) :
    ∀ cs ∈ charLinesOf ps, TextLine cs := by
  have hnil : TextLine [] := ⟨fun _ h => absurd h (by simp), fun _ h => absurd h (by simp)⟩
  induction h with
  | nil => exact fun _ h => absurd h (by simp [charLinesOf])
  | heading hpos _ hplain _ _ _ ih =>
    refine List.forall_mem_append.2 ⟨List.forall_mem_singleton.2 ?_, ih⟩
    rw [toList_writtenHeading]
    exact textLine_heading hpos hplain
  | comment quiet _ _ ih =>
    refine List.forall_mem_append.2 ⟨List.forall_mem_singleton.2 ?_, ih⟩
    rw [toList_comment]
    exact textLine_comment quiet
  | gap _ ih => exact List.forall_mem_append.2 ⟨List.forall_mem_singleton.2 hnil, ih⟩
  | placeholder legible _ _ ih =>
    rw [charLinesOf_cons, charLines_placeholder]
    exact List.forall_mem_append.2 ⟨List.forall_mem_append.2
      ⟨Placeholder.textLine_charLines legible, List.forall_mem_singleton.2 hnil⟩, ih⟩

end Legible

/-- A line is a part of the joined lines. -/
theorem infix_joinLines {cs : List Char} {css : List (List Char)} (h : cs ∈ css) :
    cs <:+: joinLines css := by
  induction css with
  | nil => exact absurd h List.not_mem_nil
  | cons ds css ih =>
    cases css with
    | nil =>
      rw [List.mem_singleton.1 h, joinLines, List.intercalate_singleton]
    | cons ds' css =>
      rw [joinLines, List.intercalate_cons_cons, List.append_assoc]
      rcases List.mem_cons.1 h with rfl | h
      · exact (List.prefix_append _ _).isInfix
      · exact (ih h).trans ((List.suffix_append ['\n'] _).trans
          (List.suffix_append ds _)).isInfix

/-- The text of pieces. -/
def textOf (ps : List TemplatePart) : String := unlines (ps.flatMap TemplatePart.lines)

theorem toList_textOf (ps : List TemplatePart) :
    (textOf ps).toList = joinLines (charLinesOf ps) := by
  rw [textOf, unlines, String.toList_intercalate, List.map_flatMap]
  rfl

theorem numbered_eq_edgeLines {css : List (List Char)} (h : ∀ cs ∈ css, AtEdge cs) :
    ∀ number, Markdown.numbered number css = edgeLines number css := by
  induction css with
  | nil => exact fun _ => rfl
  | cons cs css ih =>
    obtain ⟨hcs, hcss⟩ := List.forall_mem_cons.1 h
    intro number
    rw [Markdown.numbered, lineOf_eq_edgeLine hcs, ih hcss, edgeLines]

/-- Texts without the characters with codes 0 and 13 stay as they are. -/
theorem normalized_eq_self {cs : List Char} (h : ∀ c ∈ cs, c ≠ '\r' ∧ c ≠ '\x00') :
    normalized cs = cs := by
  induction cs with
  | nil => rfl
  | cons c cs ih =>
    obtain ⟨⟨hreturn, hzero⟩, hcs⟩ := List.forall_mem_cons.1 h
    rw [normalized, ih hcs, if_neg (by simpa using hreturn), if_neg (by simpa using hzero)]
    rintro cs rfl -
    exact hreturn rfl

namespace Legible

variable {ps : List TemplatePart} (h : Legible ps) (hsome : ps ≠ [])

include h hsome

/-- The lines of the text of pieces are those of the pieces. -/
theorem cutOn_textOf : cutOn '\n' (textOf ps).toList = charLinesOf ps := by
  rw [toList_textOf, joinLines, cutOn,
    cut_intercalate (mt charLinesOf_eq_nil_iff.1 hsome) (fun cs hcs c hc => ?_) (by decide)]
  have hcode := (h.textLine_of_mem cs hcs).written c hc
  refine Bool.eq_false_iff.2 fun heq => ?_
  rw [beq_iff_eq.1 heq] at hcode
  exact absurd hcode (by decide)

theorem documentLines_textOf :
    documentLines (textOf ps).toList = edgeLines 0 (charLinesOf ps).dropLast := by
  have hnormal : normalized (textOf ps).toList = (textOf ps).toList := by
    refine normalized_eq_self fun c hc => ?_
    rw [toList_textOf] at hc
    rcases eq_or_mem_of_mem_intercalate hc with rfl | ⟨cs, hcs, hc⟩
    · decide
    · have hcode := (h.textLine_of_mem cs hcs).written c hc
      constructor <;> rintro rfl <;> exact absurd hcode (by decide)
  have hlast : (((charLinesOf ps).getLast?.map fun cs => cs.all isIndent).getD true) = true := by
    cases hcs : (charLinesOf ps).getLast? with
    | none => rfl
    | some cs =>
      rw [h.getLast?_charLinesOf cs hcs]
      rfl
  rw [documentLines, hnormal, h.cutOn_textOf hsome, if_pos hlast]
  exact numbered_eq_edgeLines
    (fun cs hcs => (h.textLine_of_mem cs (List.dropLast_subset _ hcs)).edge) 0

/-- **The text of legible pieces is read as their blocks.** -/
theorem blocksOf_textOf : blocksOf (textOf ps).toList = blocksFrom 0 ps :=
  Reads.blocksOf_eq (h.documentLines_textOf hsome ▸ h.reads)

end Legible

/-! ## Events -/

/-- The events that pieces are read as. -/
def eventsFrom (number : Nat) (ps : List TemplatePart) : List Event :=
  eventsOf [] true (blocksFrom number ps)

theorem eventsOf_append (labels : Labels) (top : Bool) (bs bs' : List Block) :
    eventsOf labels top (bs ++ bs') = eventsOf labels top bs ++ eventsOf labels top bs' := by
  induction bs with
  | nil => rfl
  | cons b bs ih => rw [List.cons_append, eventsOf, ih, eventsOf, List.append_assoc]

theorem eventsFrom_cons (number : Nat) (p : TemplatePart) (ps : List TemplatePart) :
    eventsFrom number (p :: ps) =
      eventsOf [] true (p.blocks number) ++ eventsFrom (number + p.lines.length) ps :=
  eventsOf_append [] true _ _

theorem allDefinitions_append (bs bs' : List Block) :
    allDefinitions (bs ++ bs') = allDefinitions bs ++ allDefinitions bs' := by
  induction bs with
  | nil => rfl
  | cons b bs ih => rw [List.cons_append, allDefinitions, ih, allDefinitions, List.append_assoc]

theorem itemDefinitions_eq_nil {items : List (List Block)}
    (h : ∀ bs ∈ items, allDefinitions bs = []) : itemDefinitions items = [] := by
  induction items with
  | nil => rfl
  | cons bs items ih =>
    obtain ⟨hbs, hitems⟩ := List.forall_mem_cons.1 h
    rw [itemDefinitions, hbs, ih hitems, List.append_nil]

theorem definitionsOf_block (number : Nat) (p : Placeholder) :
    definitionsOf (p.block number) = [] := by
  cases p with
  | list ordered items =>
    refine itemDefinitions_eq_nil fun bs hbs => ?_
    obtain ⟨n, -, rfl⟩ := List.mem_map.1 hbs
    rfl
  | _ => rfl

/-- There are no definitions in pieces. -/
theorem allDefinitions_blocksFrom (ps : List TemplatePart) : ∀ number,
    allDefinitions (blocksFrom number ps) = [] := by
  induction ps with
  | nil => exact fun _ => rfl
  | cons p ps ih =>
    intro number
    rw [blocksFrom, allDefinitions_append, ih, List.append_nil]
    cases p with
    | line text =>
      rw [TemplatePart.blocks]
      split <;> rfl
    | placeholder p => exact (List.append_nil _).trans (definitionsOf_block number p)
    | _ => rfl

/-- **The text of legible pieces has their events.** -/
theorem Legible.documentEvents_textOf {ps : List TemplatePart} (h : Legible ps) (hsome : ps ≠ []) :
    documentEvents (textOf ps).toList = eventsFrom 0 ps := by
  rw [documentEvents, h.blocksOf_textOf hsome, allDefinitions_blocksFrom]
  rfl

/-- There is no front matter behind a comment. -/
theorem splitFrontMatter_of_comment {text note : String} {rest : List (List Char)}
    (hlines : cutOn '\n' text.toList = ("<!-- " ++ note ++ " -->").toList :: rest) :
    splitFrontMatter text = .ok (none, text) := by
  have hopens : opensFrontMatter ("<!-- " ++ note ++ " -->").toList = false := by
    refine Bool.eq_false_iff.2 fun hopens => ?_
    have hprefix : trimRight isBlank ("<!-- " ++ note ++ " -->").toList <+:
        ("<!-- " ++ note ++ " -->").toList := List.rdropWhile_prefix _ _
    rw [beq_iff_eq.1 hopens, toList_comment] at hprefix
    exact absurd (List.cons_prefix_cons.1 hprefix).1 (by decide)
  have hclose : closingLine? (("<!-- " ++ note ++ " -->").toList :: rest) = none :=
    if_neg (by rw [hopens]; exact Bool.false_ne_true)
  unfold splitFrontMatter
  rw [hlines]
  dsimp only
  rw [hclose]

end Outline

import Mathlib
import Outline.Proofs.Template.Gather
import Outline.Template.Basic

/-!
# Pieces of templates that can be read back

The template has comments and placeholders behind each heading. **The comments and placeholders for
requirements of one kind can be read back in front of others** (`exists_requirementParts`), unless
there are two lists, or other pieces behind a list.

* `Bounds.Satisfiable`: bounds that can be written, and that some count satisfies;
* `Filling`: pieces behind a heading, with their placeholders;
* `Notes`: comments that can be read back.
-/

namespace Outline

open Markdown

/-! ## Amounts -/

/-- An amount that is a whole number short enough to be written. -/
structure Amount.Short (a : Amount) : Prop where
  whole : a.written = none
  short : a.value < 10 ^ maxDigits

/-- Bounds that some count satisfies. -/
structure Bounds.Satisfiable (b : Bounds) : Prop where
  min : b.min.Short
  max : b.max.Short
  order : b.max.value = 0 ∨ b.min.value ≤ b.max.value

/-! ## Quiet texts -/

theorem quiet_append_iff {a b : String} : Quiet (a ++ b) ↔ Quiet a ∧ Quiet b := by
  simp only [Quiet, String.toList_append, List.forall_mem_append]

theorem quiet_of_plainText {text : String} (h : PlainText text.toList) : Quiet text := fun c hc =>
  ⟨h.written c hc, h.ne_of_mem hc rfl (by decide)⟩

theorem quiet_toString (n : Nat) : Quiet (toString n) := fun c hc => by
  have hdigit := isAsciiDigit_of_mem_digits hc
  refine ⟨?_, fun hbar => ?_⟩
  · simp only [isAsciiDigit, Bool.and_eq_true, decide_eq_true_eq] at hdigit
    omega
  · rw [hbar] at hdigit
    cases hdigit

theorem quiet_intercalate {sep : String} (hsep : Quiet sep) {texts : List String}
    (h : ∀ text ∈ texts, Quiet text) : Quiet (sep.intercalate texts) := by
  intro c hc
  rw [String.toList_intercalate] at hc
  induction texts with
  | nil => exact absurd hc List.not_mem_nil
  | cons text texts ih =>
    obtain ⟨htext, htexts⟩ := List.forall_mem_cons.1 h
    cases texts with
    | nil => exact htext c (by simpa using hc)
    | cons text' texts =>
      rw [List.map_cons, List.map_cons, List.intercalate_cons_cons, List.append_assoc,
        List.mem_append, List.mem_append] at hc
      rcases hc with hc | hc | hc
      · exact htext c hc
      · exact hsep c hc
      · exact ih htexts hc

theorem quiet_writtenHeading (level : Nat) {title : List Char} (h : PlainText title) :
    Quiet (writtenHeading level (String.ofList title)) := by
  intro c hc
  rw [toList_writtenHeading] at hc
  rcases List.mem_append.1 hc with hc | hc
  · rw [List.eq_of_mem_replicate hc]
    decide
  · rcases List.mem_cons.1 hc with rfl | hc
    · decide
    · exact ⟨h.written c hc, h.ne_of_mem hc rfl (by decide)⟩

/-! ## Pieces behind headings -/

/-- A comment that can be read back. -/
def TemplatePart.IsNote (q : TemplatePart) : Prop := ∃ text, q = .comment text ∧ Quiet text

/-- No list among placeholders. -/
def Listless (fillers : List Placeholder) : Prop := ∀ ordered items, .list ordered items ∉ fillers

/-- **Pieces behind a heading, with these placeholders**, which can be read back in front of others
that can be, or in front of a heading if there is a list among them. -/
structure Filling (ps : List TemplatePart) (fillers : List Placeholder) : Prop where
  lines : ∀ text, TemplatePart.line text ∉ ps
  placeholders : placeholdersOf ps = fillers
  sound : ∀ filler ∈ fillers, filler.Legible
  legible : ∀ rest, Legible rest → (Listless fillers ∨ HeadingFirst rest) → Legible (ps ++ rest)

namespace Filling

theorem nil : Filling [] [] :=
  ⟨fun _ => List.not_mem_nil, rfl, fun _ h => absurd h List.not_mem_nil, fun _ h _ => h⟩

theorem gap {ps : List TemplatePart} {fillers : List Placeholder} (h : Filling ps fillers) :
    Filling (.gap :: ps) fillers where
  lines text := by simpa using h.lines text
  placeholders := h.placeholders
  sound := h.sound
  legible rest hrest halone := .gap (h.legible rest hrest halone)

theorem notes {notes ps : List TemplatePart} {fillers : List Placeholder}
    (hnotes : ∀ q ∈ notes, q.IsNote) (hsome : ps ≠ []) (h : Filling ps fillers) :
    Filling (notes ++ ps) fillers := by
  induction notes with
  | nil => exact h
  | cons q notes ih =>
    obtain ⟨⟨text, rfl, hquiet⟩, hmore⟩ := List.forall_mem_cons.1 hnotes
    have hih := ih hmore
    exact ⟨fun t => by simpa using hih.lines t, hih.placeholders, hih.sound,
      fun rest hrest halone => .comment hquiet (by simp [hsome]) (hih.legible rest hrest halone)⟩

/-- Pieces without a list in front of others. -/
theorem append {ps qs : List TemplatePart} {fillers fillers' : List Placeholder}
    (h : Filling ps fillers) (hlistless : Listless fillers) (h' : Filling qs fillers') :
    Filling (ps ++ qs) (fillers ++ fillers') where
  lines text := by simpa using ⟨h.lines text, h'.lines text⟩
  placeholders := by rw [placeholdersOf_append, h.placeholders, h'.placeholders]
  sound := List.forall_mem_append.2 ⟨h.sound, h'.sound⟩
  legible rest hrest halone := by
    rw [List.append_assoc]
    refine h.legible _ (h'.legible rest hrest (halone.imp_left fun hlist ordered items hmem => ?_))
      (Or.inl hlistless)
    exact hlist ordered items (List.mem_append_right _ hmem)

/-- Placeholders, of which only the last one is a list. -/
theorem fillers {fillers : List Placeholder} (hsound : ∀ filler ∈ fillers, filler.Legible)
    (halone : Listless fillers ∨ ∃ filler, fillers = [filler]) :
    Filling (fillers.map .placeholder) fillers where
  lines text := by simp
  placeholders := placeholdersOf_fillers fillers
  sound := hsound
  legible rest hrest hfirst := by
    rcases halone with hlistless | ⟨filler, rfl⟩
    · -- Without a list it does not matter what stands behind, for any of the placeholders.
      clear hfirst
      induction fillers with
      | nil => exact hrest
      | cons filler fillers ih =>
        obtain ⟨hfiller, hfillers⟩ := List.forall_mem_cons.1 hsound
        refine .placeholder hfiller (fun ordered items h => ?_) (ih hfillers fun o n h => ?_)
        · exact absurd (h ▸ List.mem_cons_self) (hlistless ordered items)
        · exact hlistless o n (List.mem_cons_of_mem _ h)
    · refine .placeholder (hsound filler List.mem_cons_self) (fun ordered items h => ?_) hrest
      exact hfirst.resolve_left fun hlistless => hlistless ordered items (h ▸ List.mem_cons_self)

end Filling

/-! ## Comments -/

/-- Comments that can be read back, and no fault. -/
def Notes (p : Parts) : Prop := ∃ notes, p = .ok notes ∧ ∀ q ∈ notes, q.IsNote

theorem notes_nil : Notes (.ok []) := ⟨[], rfl, fun _ h => absurd h List.not_mem_nil⟩

theorem notes_comment {text : String} (h : Quiet text) : Notes (.ok [.comment text]) :=
  ⟨_, rfl, List.forall_mem_singleton.2 ⟨text, rfl, h⟩⟩

theorem Notes.append {p p' : Parts} (h : Notes p) (h' : Notes p') :
    Notes (do return (← p) ++ (← p')) := by
  obtain ⟨notes, rfl, hnotes⟩ := h
  obtain ⟨notes', rfl, hnotes'⟩ := h'
  exact ⟨notes ++ notes', rfl, List.forall_mem_append.2 ⟨hnotes, hnotes'⟩⟩

theorem Amount.turns_eq_ok {a : Amount} (h : a.written = none) : a.turns = .ok a.value := by
  rw [turns, h]

theorem Amount.Short.text_eq {a : Amount} (h : a.Short) : a.text = .ok (toString a.value) := by
  -- for any exponent, so that the power is not computed
  have hpow : ∀ k, a.value < 10 ^ k → a.value < Nat.pow 10 k := fun _ hlt => hlt
  have hwritable : (Value.int a.value).writable = true := by
    rw [Value.writable, writableInt, Int.natAbs_natCast, decide_eq_true_eq]
    exact hpow maxDigits h.short
  rw [Amount.text, Amount.toValue, h.whole]
  dsimp only
  rw [Value.text?, hwritable]
  rfl

theorem notes_amountComment {a : Amount} (h : a.Short) {before behind : String}
    (hbefore : Quiet before) (hbehind : Quiet behind) : Notes (amountComment before a behind) := by
  unfold amountComment
  split_ifs
  · exact notes_nil
  · rw [h.text_eq]
    refine notes_comment ?_
    simp only [quiet_append_iff]
    exact ⟨⟨⟨⟨hbefore, by decide⟩, quiet_toString _⟩, by decide⟩, hbehind⟩

theorem Bounds.Satisfiable.notes {b : Bounds} (h : b.Satisfiable) {what : String}
    (hwhat : Quiet what) : Notes (b.comments what) :=
  (notes_amountComment h.min (by decide) (quiet_append_iff.2 ⟨hwhat, by decide⟩)).append
    (notes_amountComment h.max (by decide) (quiet_append_iff.2 ⟨hwhat, by decide⟩))

theorem isNote_textsComment {before : String} (hbefore : Quiet before) {texts : List String}
    (h : ∀ text ∈ texts, IsWord text.toList) : ∀ q ∈ textsComment before texts, q.IsNote := by
  unfold textsComment
  split_ifs
  · exact fun _ h => absurd h List.not_mem_nil
  · refine List.forall_mem_singleton.2 ⟨_, rfl, ?_⟩
    simp only [quiet_append_iff]
    exact ⟨⟨hbefore, by decide⟩, quiet_intercalate (by decide) fun text htext =>
      quiet_of_plainText (h text htext).plainText⟩

theorem quiet_qualified {word kind : String} (hword : Quiet word) (hkind : Quiet kind) :
    Quiet (qualified word kind) := by
  unfold qualified
  split_ifs
  · exact hkind
  · simp only [quiet_append_iff]
    exact ⟨⟨hword, by decide⟩, hkind⟩

/-! ## Requirements -/

/-- What a function that does not fail gives for each member of a list. -/
theorem mapM_ok {α β : Type} {f : α → Except Fault β} {g : α → β} {l : List α}
    (h : ∀ a ∈ l, f a = .ok (g a)) : l.mapM f = .ok (l.map g) := by
  induction l with
  | nil => rfl
  | cons a l ih =>
    obtain ⟨ha, hl⟩ := List.forall_mem_cons.1 h
    rw [List.mapM_cons, ha, ih hl]
    rfl

theorem notes_flatten {α : Type} {comments : α → Parts} {rules : List α}
    (h : ∀ r ∈ rules, Notes (comments r)) : ∃ notes, rules.mapM comments = .ok notes ∧
      (∀ q ∈ notes.flatten, q.IsNote) ∧
      ∀ r ∈ rules, ∀ note, comments r = .ok [note] → note ∈ notes.flatten := by
  induction rules with
  | nil =>
    exact ⟨[], rfl, fun _ h => absurd h List.not_mem_nil, fun _ h => absurd h List.not_mem_nil⟩
  | cons r rules ih =>
    obtain ⟨⟨first, hfirst, hnotes⟩, hrules⟩ := List.forall_mem_cons.1 h
    obtain ⟨notes, hmap, hmore, hmem⟩ := ih hrules
    refine ⟨first :: notes, by rw [List.mapM_cons, hfirst, hmap]; rfl, ?_, ?_⟩
    · rw [List.flatten_cons]
      exact List.forall_mem_append.2 ⟨hnotes, hmore⟩
    · rw [List.flatten_cons]
      refine List.forall_mem_cons.2 ⟨fun note hnote => ?_, fun r hr note hnote =>
        List.mem_append_right _ (hmem r hr note hnote)⟩
      obtain rfl : first = [note] := Except.ok.inj (hfirst.symm.trans hnote)
      exact List.mem_append_left _ (List.mem_singleton_self note)

theorem flatten_map_fillers {α : Type} (fill : α → List Placeholder) (rules : List α) :
    (rules.map fun r => (fill r).map TemplatePart.placeholder).flatten =
      (rules.flatMap fill).map .placeholder := by
  rw [List.map_flatMap, List.flatMap_def]

/-- **The pieces for the requirements of one kind**: comments on all of them, and their
placeholders. -/
theorem exists_requirementParts {α : Type} {title : String} (htitle : Quiet title)
    {comments placeholders : α → Parts} {fill : α → List Placeholder} {rules : List α}
    (hcomments : ∀ r ∈ rules, Notes (comments r))
    (hplaceholders : ∀ r ∈ rules, placeholders r = .ok ((fill r).map .placeholder))
    (hsound : ∀ r ∈ rules, ∀ filler ∈ fill r, filler.Legible)
    (halone : Listless (rules.flatMap fill) ∨ ∃ filler, rules.flatMap fill = [filler]) :
    ∃ ps, requirementParts title comments placeholders rules = .ok ps ∧
      Filling ps (rules.flatMap fill) ∧
      ∀ r ∈ rules, ∀ note, comments r = .ok [note] → note ∈ ps := by
  unfold requirementParts
  cases rules with
  | nil => exact ⟨[], rfl, .nil, fun _ h => absurd h List.not_mem_nil⟩
  | cons r rules =>
    obtain ⟨notes, hmap, hnotes, hmem⟩ := notes_flatten hcomments
    have hfillers : Filling (((r :: rules).flatMap fill).map .placeholder)
        ((r :: rules).flatMap fill) :=
      .fillers (fun filler hfiller => by
        obtain ⟨r', hr', hfiller⟩ := List.mem_flatMap.1 hfiller
        exact hsound r' hr' filler hfiller) halone
    refine ⟨(.comment title :: notes.flatten) ++
      (.gap :: ((r :: rules).flatMap fill).map .placeholder), ?_, ?_, fun r' hr' note hnote => ?_⟩
    · rw [hmap, mapM_ok hplaceholders]
      exact congrArg (fun fillers => Except.ok ((.comment title :: notes.flatten) ++
        (.gap :: fillers))) (flatten_map_fillers fill (r :: rules))
    · exact hfillers.gap.notes (List.forall_mem_cons.2 ⟨⟨title, rfl, htitle⟩, hnotes⟩)
        (List.cons_ne_nil _ _)
    · exact List.mem_append_left _ (List.mem_cons_of_mem _ (hmem r' hr' note hnote))

/-- As many placeholders as the lower bound says. -/
def Bounds.fill (b : Bounds) (p : Placeholder) : List Placeholder := List.replicate b.min.value p

/-- The pieces for requirements with bounds, each with its placeholder. -/
theorem exists_boundedParts {α : Type} {title : String} (htitle : Quiet title)
    {comments placeholders : α → Parts} {bounds : α → Bounds} {filler : α → Placeholder}
    {rules : List α} (hcomments : ∀ r ∈ rules, Notes (comments r))
    (hplaceholders : ∀ r ∈ rules,
      placeholders r = .ok (((bounds r).fill (filler r)).map .placeholder))
    (hlegible : ∀ r ∈ rules, (bounds r).min.value ≠ 0 → (filler r).Legible)
    (halone : Listless (rules.flatMap fun r => (bounds r).fill (filler r)) ∨
      ∃ p, rules.flatMap (fun r => (bounds r).fill (filler r)) = [p]) :
    ∃ ps, requirementParts title comments placeholders rules = .ok ps ∧
      Filling ps (rules.flatMap fun r => (bounds r).fill (filler r)) := by
  have hsound : ∀ r ∈ rules, ∀ p ∈ (bounds r).fill (filler r), p.Legible := fun r hr p hp => by
    obtain ⟨hsome, rfl⟩ := List.mem_replicate.1 hp
    exact hlegible r hr hsome
  obtain ⟨ps, hps, hfilling, -⟩ :=
    exists_requirementParts htitle hcomments hplaceholders hsound halone
  exact ⟨ps, hps, hfilling⟩

theorem Bounds.placeholders_eq_ok {b : Bounds} (h : b.min.written = none) (p : Placeholder) :
    b.placeholders p = .ok ((b.fill p).map .placeholder) := by
  rw [placeholders, Amount.turns_eq_ok h, fill, List.map_replicate]
  rfl

end Outline

import Outline.Proofs.Text.Blank
import Outline.Yaml.Token.Scalar

/-!
# Readings within a line

What a reading takes from the front of a text, if no line ends in what it looks at: spaces
(`run_spaces`), a comment (`run_comment`), and **a text between double quotes**
(`run_quotedScalar`).

* `onLine`: a place on the first line, where index and column agree;
* `Gap`: spaces, and what ends them within the line.
-/

namespace Outline.Yaml

open Read

variable {p : Char → Bool} {xs gap rest : List Char}

/-- A step that succeeds, and the steps behind it. -/
theorem run_bind_ok {σ α β : Type} {x : StateT σ (Except Fault) α}
    {f : α → StateT σ (Except Fault) β} {s s' : σ} {a : α} (h : x.run s = .ok (a, s')) :
    (x >>= f).run s = (f a).run s' := by
  rw [StateT.run_bind, h]
  rfl

/-! ## Places on a line -/

/-- A character that ends no line and has a width. -/
def isInline (c : Char) : Bool := !isBreakChar c && c != '\uFEFF'

/-- The place on the first line behind `i` characters. -/
def onLine (i : Nat) (rest : List Char) : Cursor := ⟨rest, i, 0, i⟩

@[simp] theorem rest_onLine (i : Nat) (rest : List Char) : (onLine i rest).rest = rest := rfl

@[simp] theorem index_onLine (i : Nat) (rest : List Char) : (onLine i rest).index = i := rfl

@[simp] theorem line_onLine (i : Nat) (rest : List Char) : (onLine i rest).line = 0 := rfl

@[simp] theorem column_onLine (i : Nat) (rest : List Char) : (onLine i rest).column = i := rfl

/-- What follows does not begin with the end of a line. -/
def NoBreak (rest : List Char) : Prop := ∀ c ∈ rest.head?, isBreakChar c = false

theorem noBreak_nil : NoBreak [] := fun _ hc => nomatch hc

theorem skip_onLine (hxs : ∀ c ∈ xs, isInline c = true) (i : Nat) :
    (onLine i (xs ++ rest)).skip xs.length = onLine (i + xs.length) rest := by
  induction xs generalizing i with
  | nil => rfl
  | cons c xs ih =>
    obtain ⟨hc, hxs⟩ := List.forall_mem_cons.1 hxs
    obtain ⟨hbreak, hmark⟩ : isBreakChar c = false ∧ (c == '\uFEFF') = false := by
      simpa [isInline] using hc
    have hstep : (onLine i (c :: (xs ++ rest))).step = onLine (i + 1) (xs ++ rest) := by
      simp [onLine, Cursor.step, hbreak, hmark]
    rw [List.cons_append, List.length_cons, Cursor.skip, hstep, ih hxs]
    simp only [Nat.add_assoc, Nat.add_comm 1]

theorem run_move (hxs : ∀ c ∈ xs, isInline c = true) (i : Nat) :
    (move xs.length).run (onLine i (xs ++ rest)) = .ok ((), onLine (i + xs.length) rest) := by
  rw [← skip_onLine hxs]
  rfl

theorem run_move_one {c : Char} (hc : isInline c = true) (i : Nat) :
    (move 1).run (onLine i (c :: rest)) = .ok ((), onLine (i + 1) rest) :=
  have hxs : ∀ d ∈ [c], isInline d = true := by simpa using hc
  run_move hxs i

theorem run_peek (i : Nat) : peek.run (onLine i rest) = .ok (rest.head?, onLine i rest) := rfl

theorem run_takeWhile (hp : ∀ c ∈ xs, p c = true) (hrest : ∀ c ∈ rest.head?, p c = false)
    (hxs : ∀ c ∈ xs, isInline c = true) (i : Nat) :
    (Read.takeWhile p).run (onLine i (xs ++ rest)) = .ok (xs, onLine (i + xs.length) rest) := by
  have hrun : (onLine i (xs ++ rest)).run p = xs := takeWhile_append_apart hp hrest
  rw [Read.takeWhile, run_bind_ok rfl, hrun, run_bind_ok (run_move hxs i)]
  rfl

/-! ## Spaces and comments -/

/-- Spaces, and behind them something else on the same line, or the end of the text. -/
structure Gap (gap rest : List Char) : Prop where
  spaces : ∀ c ∈ gap, c = ' '
  ends : rest.head? ≠ some ' '
  noBreak : NoBreak rest

theorem Gap.nil (hends : rest.head? ≠ some ' ') (hbreak : NoBreak rest) : Gap [] rest :=
  ⟨List.forall_mem_nil _, hends, hbreak⟩

theorem Gap.isInline (h : Gap gap rest) : ∀ c ∈ gap, isInline c = true := by
  intro c hc
  rw [h.spaces c hc]
  decide

theorem run_takeSpaces (h : Gap gap rest) (i : Nat) :
    (Read.takeWhile (· == ' ')).run (onLine i (gap ++ rest)) =
      .ok (gap, onLine (i + gap.length) rest) := by
  refine run_takeWhile (fun c hc => beq_iff_eq.2 (h.spaces c hc)) (fun c hc => ?_) h.isInline i
  rw [beq_eq_false_iff_ne]
  rintro rfl
  exact h.ends hc

theorem run_spaces (h : Gap gap rest) (i : Nat) :
    spaces.run (onLine i (gap ++ rest)) = .ok ((), onLine (i + gap.length) rest) := by
  rw [spaces, run_bind_ok (run_takeSpaces h i)]
  rfl

theorem run_comment_of_ne (hrest : rest.head? ≠ some '#') (i : Nat) :
    comment.run (onLine i rest) = .ok ((), onLine i rest) := by
  rw [comment, run_bind_ok (run_peek i), if_neg (by simpa using hrest)]
  rfl

theorem run_comment {note : List Char} (hnote : note.head? = some '#')
    (hinline : ∀ c ∈ note, isInline c = true) (i : Nat) :
    comment.run (onLine i note) = .ok ((), onLine (i + note.length) []) := by
  have hbreak : ∀ c ∈ note, (!isBreakChar c) = true := fun c hc =>
    (Bool.and_eq_true_iff.1 (hinline c hc)).1
  have hend : ∀ c ∈ ([] : List Char).head?, (!isBreakChar c) = false := fun c hc => nomatch hc
  have htake := run_takeWhile hbreak hend hinline i
  rw [List.append_nil] at htake
  rw [comment, run_bind_ok (run_peek i), if_pos (by simpa using hnote), run_bind_ok htake]
  rfl

/-- Where no line ends, nothing is taken. -/
theorem run_lineBreak_of_noBreak (hrest : NoBreak rest) (i : Nat) :
    lineBreak.run (onLine i rest) = .ok ([], onLine i rest) := by
  unfold lineBreak
  rw [run_bind_ok rfl]
  cases rest with
  | nil => rfl
  | cons c rest =>
    have hc : isBreakChar c = false := hrest c rfl
    simp only [isBreakChar, Bool.or_eq_false_iff, beq_eq_false_iff_ne] at hc
    obtain ⟨⟨⟨⟨hfeed, hreturn⟩, hnext⟩, hline⟩, hparagraph⟩ := hc
    dsimp only [onLine]
    split
    · rename_i heq
      exact absurd (List.cons.inj heq).1 hreturn
    · rename_i heq
      cases heq
      simp only [hfeed, hreturn, hnext, hline, hparagraph, beq_iff_eq, Bool.or_eq_true, or_self,
        if_false]
      rfl
    · rfl

theorem isBreak_iff : (isBreak rest.head? && rest.head?.isSome) = true ↔ ¬NoBreak rest := by
  cases rest <;> simp [isBreak, NoBreak]

/-! ## Texts between double quotes -/

/-- **A text between double quotes**, of characters that stand for themselves there. -/
theorem run_quotedScalar {text : List Char} (hsolid : ∀ c ∈ text, isSolid c = true)
    (hinline : ∀ c ∈ text, isInline c = true) (i : Nat) :
    (quotedScalar '"').run (onLine i ('"' :: text ++ '"' :: rest)) =
      .ok (String.ofList text, onLine (i + (text.length + 2)) rest) := by
  have hquote : isInline '"' = true := by decide
  have htext (fuel : Nat) : (quotedSolid ('"' == '"') (fuel + 1)).run
      (onLine (i + 1) (text ++ '"' :: rest)) =
        .ok (text, onLine (i + 1 + text.length) ('"' :: rest)) := by
    rw [quotedSolid, run_bind_ok (run_takeWhile hsolid (by simp [isSolid]) hinline (i + 1))]
    rfl
  have hrest (fuel : Nat) : (quotedRest '"' (fuel + 1)).run
      (onLine (i + 1 + text.length) ('"' :: rest)) =
        .ok ([], onLine (i + 1 + text.length + 1) rest) := by
    rw [quotedRest, run_bind_ok (run_peek _), if_pos (by rfl), run_bind_ok (run_move_one hquote _)]
    rfl
  rw [quotedScalar, run_bind_ok rfl, List.cons_append, run_bind_ok (run_move_one hquote i)]
  rw [run_bind_ok (htext _), run_bind_ok (hrest _), List.append_nil]
  simp only [Nat.add_assoc, Nat.add_comm 1]
  rfl

end Outline.Yaml

import Outline.Proofs.Yaml.Inline

/-!
# Plain texts within a line

**A text without quotes is read up to what ends it** (`run_plainScalar`), if it can go on over all
of its characters: words with spaces between them, without a colon before a blank and without a
comment sign behind one.

* `goesOnAll`: whether a plain text can go on over all characters of a text;
* `Unquoted`: texts that can be read as plain ones;
* `Behind`: what ends them.
-/

namespace Outline.Yaml

open Read

variable {cs gap rest more word : List Char}

/-! ## Characters -/

/-- Whether a plain text can go on over a character on its line, given the one behind it. -/
def goesOn (c : Char) (next : Option Char) : Bool :=
  isInline c && c != '\t' && !(c == ':' && isBlankGap next) &&
    !(c == ' ' && (next == none || next == some '#'))

/-- Whether a plain text can go on over all characters, up to its end. -/
def goesOnAll : List Char → Bool
  | [] => true
  | c :: cs => goesOn c cs.head? && goesOnAll cs

/-- A character over which a plain text goes on whatever is behind it. -/
def isSteady (c : Char) : Bool := isInline c && c != '\t' && c != ':' && c != ' '

theorem goesOnAll_of_steady (h : ∀ c ∈ cs, isSteady c = true) : goesOnAll cs = true := by
  induction cs with
  | nil => rfl
  | cons c cs ih =>
    obtain ⟨hc, hcs⟩ := List.forall_mem_cons.1 h
    simp only [isSteady, Bool.and_eq_true, bne_iff_ne] at hc
    simp [goesOnAll, goesOn, hc, ih hcs]

theorem isInline_of_goesOnAll (h : goesOnAll cs = true) : ∀ c ∈ cs, isInline c = true := by
  induction cs with
  | nil => exact List.forall_mem_nil _
  | cons c cs ih =>
    simp only [goesOnAll, goesOn, Bool.and_eq_true] at h
    exact List.forall_mem_cons.2 ⟨h.1.1.1.1, ih h.2⟩

theorem goesOnAll_of_append (h : goesOnAll (cs ++ more) = true) : goesOnAll more = true := by
  induction cs with
  | nil => exact h
  | cons c cs ih => exact ih (Bool.and_eq_true_iff.1 h).2

/-- A text that can be read as a plain one. -/
structure Unquoted (cs : List Char) : Prop where
  nonempty : cs ≠ []
  noSpace : cs.head? ≠ some ' '
  noComment : cs.head? ≠ some '#'
  goesOn : goesOnAll cs = true

theorem Unquoted.head?_append (h : Unquoted cs) (rest : List Char) :
    (cs ++ rest).head? = cs.head? := by
  cases cs with
  | nil => exact absurd rfl h.nonempty
  | cons c cs => rfl

theorem Unquoted.noBreak (h : Unquoted cs) (rest : List Char) : NoBreak (cs ++ rest) := by
  intro c hc
  rw [h.head?_append] at hc
  have hinline := isInline_of_goesOnAll h.goesOn c (List.mem_of_mem_head? hc)
  simp only [isInline, Bool.and_eq_true, Bool.not_eq_true'] at hinline
  exact hinline.1

/-- A plain text goes on behind spaces in it, and not with a comment. -/
theorem unquoted_of_gap (hspaces : ∀ c ∈ gap, c = ' ') (hsome : gap ≠ [])
    (hnext : more.head? ≠ some ' ') (h : goesOnAll (gap ++ more) = true) : Unquoted more := by
  have hmore := goesOnAll_of_append h
  obtain ⟨gap, c, rfl⟩ := List.eq_nil_or_concat gap |>.resolve_left hsome
  have hc : c = ' ' := hspaces c (by simp)
  rw [List.concat_eq_append, List.append_assoc] at h
  have hlast : goesOnAll (c :: more) = true := goesOnAll_of_append h
  obtain ⟨hne, hnote⟩ : more ≠ [] ∧ more.head? ≠ some '#' := by
    cases more <;> simp_all [goesOnAll, Yaml.goesOn]
  exact ⟨hne, hnext, hnote, hmore⟩

/-! ## Words -/

/-- The first word of a plain text, and what is behind it: nothing, or spaces and a plain text. -/
inductive FirstWord (cs : List Char) : List Char → Prop
  | last : FirstWord cs cs
  | more {word gap more : List Char} (hsplit : cs = word ++ (gap ++ more)) (hsome : gap ≠ [])
      (hspaces : ∀ c ∈ gap, c = ' ') (hmore : Unquoted more) : FirstWord cs word

theorem firstWord_takeWhile (h : goesOnAll cs = true) :
    FirstWord cs (cs.takeWhile (· != ' ')) := by
  have hsplit : cs.takeWhile (· != ' ') ++ cs.dropWhile (· != ' ') = cs :=
    List.takeWhile_append_dropWhile
  have hspace := List.head?_dropWhile_not (· != ' ') cs
  generalize cs.takeWhile (· != ' ') = word at hsplit ⊢
  generalize cs.dropWhile (· != ' ') = later at hsplit hspace
  cases later with
  | nil =>
    rw [List.append_nil] at hsplit
    exact hsplit ▸ .last
  | cons c later =>
    have hc : c = ' ' := by simpa using hspace
    have hlater : (c :: later).takeWhile (· == ' ') ++ (c :: later).dropWhile (· == ' ') =
        c :: later := List.takeWhile_append_dropWhile
    have hspaces : ∀ d ∈ (c :: later).takeWhile (· == ' '), d = ' ' := fun d hd =>
      beq_iff_eq.1 (List.all_eq_true.1 List.all_takeWhile d hd)
    have hmore := List.head?_dropWhile_not (· == ' ') (c :: later)
    have hsome : (c :: later).takeWhile (· == ' ') ≠ [] := by simp [hc]
    generalize (c :: later).takeWhile (· == ' ') = gap at hlater hspaces hsome
    generalize (c :: later).dropWhile (· == ' ') = more at hlater hmore
    rw [← hsplit, ← hlater] at h
    have hnext : more.head? ≠ some ' ' := by
      intro hhead
      simp [hhead] at hmore
    exact .more (by rw [hlater, hsplit]) hsome hspaces
      (unquoted_of_gap hspaces hsome hnext (goesOnAll_of_append h))

/-- The first word is not empty, and begins as the text does. -/
theorem Unquoted.takeWhile (h : Unquoted cs) : cs.takeWhile (· != ' ') ≠ [] ∧
    (cs.takeWhile (· != ' ')).head? = cs.head? := by
  cases cs with
  | nil => exact absurd rfl h.nonempty
  | cons c cs =>
    have hc : (c != ' ') = true := by simpa using h.noSpace
    rw [List.takeWhile_cons_of_pos (p := (· != ' ')) hc]
    exact ⟨List.cons_ne_nil _ _, rfl⟩

/-! ## Readings -/

/-- What may stand behind a plain text on its line: something that ends it, or spaces and a
comment. -/
inductive Behind : List Char → List Char → Prop
  | ending {rest : List Char} (hends : endsPlain false rest = true)
      (hspace : rest.head? ≠ some ' ') (hbreak : NoBreak rest) : Behind [] rest
  | comment {gap note : List Char} (hspaces : ∀ c ∈ gap, c = ' ') (hsome : gap ≠ [])
      (hnote : note.head? = some '#') : Behind gap note

theorem Behind.endsPlain (h : Behind gap rest) : endsPlain false (gap ++ rest) = true := by
  cases h with
  | ending hends => exact hends
  | comment hspaces hsome =>
    cases gap with
    | nil => exact absurd rfl hsome
    | cons c gap => simp [Yaml.endsPlain, hspaces c List.mem_cons_self]

theorem Behind.toGap (h : Behind gap rest) : Gap gap rest := by
  cases h with
  | ending _ hspace hbreak => exact .nil hspace hbreak
  | comment hspaces _ hnote =>
    refine ⟨hspaces, by simp [hnote], fun c hc => ?_⟩
    cases hnote.symm.trans hc
    decide

theorem Behind.ends (h : Behind gap rest) : (gap.isEmpty || rest.head? == some '#') = true := by
  cases h with
  | ending => rfl
  | comment _ _ hnote => simp [hnote]

theorem plainRun_append {tail : List Char} (hcs : goesOnAll cs = true)
    (htail : endsPlain false tail = true) :
    plainRun false (cs ++ tail) = cs.takeWhile (· != ' ') := by
  induction cs with
  | nil =>
    cases tail with
    | nil => rfl
    | cons c tail => simp [plainRun, htail]
  | cons c cs ih =>
    obtain ⟨hc, hcs⟩ := Bool.and_eq_true_iff.1 hcs
    by_cases hspace : c = ' '
    · simp [hspace, plainRun, endsPlain]
    · have hends : endsPlain false (c :: (cs ++ tail)) = false := by
        have hnext : c = ':' → isBlankGap (cs ++ tail).head? = false := by
          rintro rfl
          cases cs <;> simp_all [goesOn, isBlankGap]
        simp only [goesOn, isInline, Bool.and_eq_true, Bool.not_eq_true', bne_iff_ne] at hc
        simp only [endsPlain, hc]
        by_cases hcolon : c = ':' <;> simp_all
      simp [plainRun, hends, hspace, ih hcs]

theorem run_plainBlanks (h : Gap gap rest) (fuel i : Nat) :
    (plainBlanks fuel).run (onLine i (gap ++ rest)) =
      .ok ((gap, false), onLine (i + gap.length) rest) := by
  rw [plainBlanks, run_bind_ok (run_takeSpaces h i), run_bind_ok (run_peek _),
    run_bind_ok (run_peek _), if_neg (mt isBreak_iff.1 (not_not_intro h.noBreak))]
  rfl

/-- One word of a plain text, and the spaces behind it. -/
theorem run_plainParts_succ {indent : Int} (hword : word ≠ []) (hnote : word.head? ≠ some '#')
    (hinline : ∀ c ∈ word, isInline c = true)
    (hrun : plainRun false (word ++ (gap ++ rest)) = word) (hgap : Gap gap rest) {i : Nat}
    (hindent : indent ≤ i) (fuel : Nat) (blanks : List Char) (crossed : Bool) :
    (plainParts false indent (fuel + 1) blanks crossed).run (onLine i (word ++ (gap ++ rest))) =
      if gap.isEmpty || rest.head? == some '#' then
        .ok ((blanks ++ word, false), onLine (i + word.length + gap.length) rest)
      else do
        let ((more, crossed), k) ← (plainParts false indent fuel gap false).run
          (onLine (i + word.length + gap.length) rest)
        return ((blanks ++ word ++ more, crossed), k) := by
  have hpeek : ((word ++ (gap ++ rest)).head? == some '#') = false := by
    cases word with
    | nil => exact absurd rfl hword
    | cons c cs => simpa using hnote
  have hdeep : ¬((i + word.length + gap.length : Nat) : Int) < indent := by omega
  rw [plainParts, run_bind_ok (run_peek i), hpeek, if_neg Bool.false_ne_true, run_bind_ok rfl]
  dsimp only
  rw [rest_onLine, hrun, if_neg (by simpa using hword), run_bind_ok (run_move hinline i),
    run_bind_ok (run_plainBlanks hgap _ _)]
  dsimp only
  rw [run_bind_ok rfl, run_bind_ok (run_peek _)]
  simp only [column_onLine, hdeep, decide_false, Bool.and_false, Bool.or_false]
  split
  · rfl
  · rfl

theorem run_plainParts {indent : Int} (hcs : Unquoted cs) (hbehind : Behind gap rest) {fuel i : Nat}
    (hindent : indent ≤ i) (hfuel : cs.length < fuel) (blanks : List Char) (crossed : Bool) :
    (plainParts false indent fuel blanks crossed).run (onLine i (cs ++ (gap ++ rest))) =
      .ok ((blanks ++ cs, false), onLine (i + cs.length + gap.length) rest) := by
  -- each turn reads a word; what is left of a text behind the spaces is a plain text again
  induction fuel generalizing cs i blanks crossed with
  | zero => omega
  | succ fuel ih =>
    have hrun := plainRun_append hcs.goesOn hbehind.endsPlain
    have hinline := isInline_of_goesOnAll hcs.goesOn
    have hfirst := firstWord_takeWhile hcs.goesOn
    obtain ⟨hword, hhead⟩ := hcs.takeWhile
    have hnote := hcs.noComment
    rw [← hhead] at hnote
    generalize cs.takeWhile (· != ' ') = word at hrun hfirst hword hnote
    cases hfirst with
    | last =>
      rw [run_plainParts_succ hword hnote hinline hrun hbehind.toGap hindent, if_pos hbehind.ends]
    | @more _ space more hsplit hsome hspaces hmore =>
      subst hsplit
      have hnext := hmore.head?_append (gap ++ rest)
      have hgap : Gap space (more ++ (gap ++ rest)) :=
        ⟨hspaces, by rw [hnext]; exact hmore.noSpace, hmore.noBreak _⟩
      have hstay : ¬(space.isEmpty || (more ++ (gap ++ rest)).head? == some '#') = true := by
        simpa [hnext, hsome] using hmore.noComment
      have hlength : more.length < fuel := by
        have := List.length_pos_iff.2 hword
        simp only [List.length_append] at hfuel
        omega
      rw [List.append_assoc, List.append_assoc] at hrun ⊢
      rw [run_plainParts_succ hword hnote (fun c hc => hinline c (List.mem_append_left _ hc)) hrun
        hgap hindent, if_neg hstay, ih hmore (by omega) hlength]
      simp only [List.length_append, List.append_assoc, Nat.add_assoc]
      rfl

/-- **A plain text is read up to what ends it on its line.** -/
theorem run_plainScalar {outer : Int} (hcs : Unquoted cs) (hbehind : Behind gap rest) {i : Nat}
    (houter : outer < i) :
    (plainScalar false outer).run (onLine i (cs ++ (gap ++ rest))) =
      .ok ((String.ofList cs, false), onLine (i + cs.length + gap.length) rest) := by
  have hfuel : cs.length < (cs ++ (gap ++ rest)).length + 1 := by
    simp only [List.length_append]
    omega
  rw [plainScalar, run_bind_ok rfl, rest_onLine,
    run_bind_ok (run_plainParts hcs hbehind (by omega) hfuel [] false)]
  rfl

end Outline.Yaml

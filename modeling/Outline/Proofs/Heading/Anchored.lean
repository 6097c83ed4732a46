import Outline.Proofs.Expr.Fault
import Outline.Proofs.Heading.Matcher
import Outline.Proofs.Regex.Whole

/-!
# Patterns between anchors

A matcher puts `^` before a pattern and `$` behind it, where they are missing. **This changes
nothing about the headings that the pattern matches as a whole** (`answeredWhole_ask`), unless the pattern
opens with switches: behind the anchor these are malformed, and the pattern is compared as it is
written.

* `Regex.tokens_anchoredChars`, `Regex.Opens.tokens_anchoredChars`: the tokens between anchors;
* `Regex.compile_anchored`, `Regex.malformed_anchored`: what becomes of a whole pattern;
* `AnsweredWhole`: what a question about a pattern is answered with.
-/

namespace Outline

namespace Regex

/-! ## Tokens of longer patterns -/

theorem tokens_cons {c : Char} (hc : c ≠ '\\') (cs : List Char) :
    tokens (c :: cs) = .plain c :: tokens cs := by
  rw [tokens.eq_def]
  exact if_neg (mt eq_of_beq hc)

/-- Characters behind a pattern are tokens of their own, unless a backslash ends the pattern. -/
theorem tokens_append (cs ds : List Char) : tokens (cs ++ ds) = tokens cs ++ tokens ds ∨
    ∃ front more, tokens cs = front ++ [.dangling] ∧ tokens (cs ++ ds) = front ++ more := by
  have hcons : ∀ tok {ts us vs : List Tok}, (vs = ts ++ us ∨ ∃ front more,
      ts = front ++ [.dangling] ∧ vs = front ++ more) → tok :: vs = tok :: ts ++ us ∨
      ∃ front more, tok :: ts = front ++ [.dangling] ∧ tok :: vs = front ++ more := by
    rintro tok ts us vs (rfl | ⟨front, more, rfl, rfl⟩)
    · exact .inl rfl
    · exact .inr ⟨tok :: front, more, rfl, rfl⟩
  induction cs using tokens.induct with
  | case1 => exact .inl rfl
  | case2 c hc =>
    obtain rfl := eq_of_beq hc
    exact .inr ⟨[], tokens ('\\' :: ds), rfl, rfl⟩
  | case3 c hc d rest ih =>
    obtain rfl := eq_of_beq hc
    exact hcons (.escape d) ih
  | case4 c cs hc ih =>
    have hc' : c ≠ '\\' := fun h => hc (beq_iff_eq.2 h)
    rw [List.cons_append, tokens_cons hc', tokens_cons hc']
    exact hcons (.plain c) ih

theorem dangling_behind {before rest front : List Tok} {c : Char}
    (h : before ++ .plain c :: rest = front ++ [.dangling]) :
    ∃ rest', rest = rest' ++ [.dangling] ∧ front = before ++ .plain c :: rest' := by
  obtain rfl | ⟨rest, last, rfl⟩ := rest.eq_nil_or_concat
  · obtain ⟨-, hlast⟩ := List.append_inj' h rfl
    cases hlast
  · rw [List.concat_eq_append, ← List.cons_append, ← List.append_assoc] at h
    obtain ⟨rfl, hlast⟩ := List.append_inj' h rfl
    exact ⟨rest, by rw [List.concat_eq_append, hlast], rfl⟩

/-- What a pattern opens with, it opens with if a backslash at its end is left out. -/
theorem Opens.of_dangling {ts front : List Tok} (h : Opens ts) (hts : ts = front ++ [.dangling]) :
    Opens front := by
  induction h generalizing front with
  | switches hne hflags =>
    obtain ⟨rest', -, rfl⟩ := dangling_behind hts
    exact .switches hne hflags
  | note hbody _ ih =>
    obtain ⟨rest', hrest, rfl⟩ := dangling_behind hts
    exact .note hbody (ih hrest)

theorem Opens.append {ts : List Tok} (h : Opens ts) (more : List Tok) : Opens (ts ++ more) := by
  induction h with
  | switches hne hflags =>
    rw [List.append_assoc]
    exact .switches hne hflags
  | note hbody _ ih =>
    rw [List.append_assoc]
    exact .note hbody ih

/-- **What a pattern opens with, longer patterns open with.** -/
theorem opens_tokens_append {cs : List Char} (h : Opens (tokens cs)) (ds : List Char) :
    Opens (tokens (cs ++ ds)) := by
  obtain heq | ⟨front, more, hcs, heq⟩ := tokens_append cs ds
  · rw [heq]
    exact h.append _
  · rw [heq]
    exact (h.of_dangling hcs).append more

theorem Opens.head? {ts : List Tok} (h : Opens ts) : ts.head? = some (.plain '(') := by
  cases h <;> rfl

theorem head?_tokens {cs : List Char} {c : Char} (hc : c ≠ '\\') :
    (tokens cs).head? = some (.plain c) ↔ cs.head? = some c := by
  cases cs with
  | nil => exact iff_of_false nofun nofun
  | cons d cs =>
    by_cases hd : d = '\\'
    · subst hd
      refine iff_of_false ?_ fun h => hc (Option.some.inj h).symm
      cases cs <;> nofun
    · rw [tokens_cons hd, List.head?_cons, List.head?_cons, Option.some.injEq, Option.some.injEq,
        Tok.plain.injEq]

/-! ## Tokens between anchors -/

theorem anchoredChars_eq (cs : List Char) : ∃ starts ends : Bool,
    anchoredChars cs = (if starts then ['^'] else []) ++ (cs ++ if ends then ['$'] else []) ∧
      (starts = false ↔ cs.head? = some '^') := by
  by_cases hstart : (cs.head? == some '^') = true
  · refine ⟨false, !(cs.getLast? == some '$'), ?_, iff_of_true rfl (eq_of_beq hstart)⟩
    simp only [anchoredChars, if_pos hstart]
    cases cs.getLast? == some '$' <;> simp
  · refine ⟨true, !(('^' :: cs).getLast? == some '$'), ?_,
      iff_of_false nofun (mt beq_iff_eq.2 hstart)⟩
    simp only [anchoredChars, if_neg hstart]
    cases ('^' :: cs).getLast? == some '$' <;> simp

theorem tokens_opening (starts : Bool) (cs : List Char) :
    tokens ((if starts then ['^'] else []) ++ cs) = opening starts ++ tokens cs := by
  cases starts with
  | false => rfl
  | true => exact tokens_cons (by decide) cs

/-- Behind a caret, a pattern opens with what it opened with before. -/
theorem Opens.tokens_anchoredChars {cs : List Char} (h : Opens (tokens cs)) :
    ∃ rest, tokens (anchoredChars cs) = .plain '^' :: rest ∧ Opens rest := by
  obtain ⟨starts, ends, heq, hstarts⟩ := anchoredChars_eq cs
  have hhead := (head?_tokens (by decide)).1 h.head?
  cases starts with
  | false =>
    rw [hhead] at hstarts
    cases hstarts.1 rfl
  | true =>
    refine ⟨_, ?_, opens_tokens_append h (if ends then ['$'] else [])⟩
    rw [heq, tokens_opening]
    rfl

theorem tokens_anchoredChars {cs : List Char} (h : .dangling ∉ tokens cs) :
    ∃ starts ends, tokens (anchoredChars cs) = opening starts ++ tokens cs ++ closing ends ∧
      (starts = false → (tokens cs).head? = some (.plain '^')) := by
  obtain ⟨starts, ends, heq, hstarts⟩ := anchoredChars_eq cs
  refine ⟨starts, ends, ?_, fun hs => (head?_tokens (by decide)).2 (hstarts.1 hs)⟩
  have hclosing : tokens (if ends then ['$'] else []) = closing ends := by
    cases ends <;> rfl
  obtain hcs | ⟨front, more, hcs, -⟩ := tokens_append cs (if ends then ['$'] else [])
  · rw [heq, tokens_opening, hcs, hclosing, List.append_assoc]
  · exact absurd (hcs ▸ List.mem_append_right front List.mem_cons_self) h

/-! ## Whole patterns between anchors -/

theorem compile_eq_ok_iff {p : String} {P : Pattern} : compile p = .ok P ↔
    ∃ nodes t, (readPattern (tokens p.toList).length).run { rest := tokens p.toList, place := 0 } =
      .ok (nodes, t) ∧ P = ⟨nodes, ({} : Flags).change t.flags []⟩ := by
  rw [compile, parse]
  dsimp only
  cases (readPattern (tokens p.toList).length).run { rest := tokens p.toList, place := 0 } with
  | error e => exact iff_of_false nofun nofun
  | ok result =>
    refine ⟨fun h => ⟨_, _, rfl, (Except.ok.inj h).symm⟩, ?_⟩
    rintro ⟨nodes, t, hresult, rfl⟩
    obtain rfl := Except.ok.inj hresult
    rfl

theorem toList_anchored (p : String) : (anchored p).toList = anchoredChars p.toList :=
  String.toList_ofList

/-- **A pattern that does not open with switches matches the same whole texts between anchors.** -/
theorem compile_anchored {p : String} {P : Pattern} (hp : compile p = .ok P)
    (hopens : ¬ Opens (tokens p.toList)) :
    ∃ P', compile (anchored p) = .ok P' ∧ ∀ s, P'.matchesAll s = P.matchesAll s := by
  obtain ⟨nodes, t, hrun, rfl⟩ := compile_eq_ok_iff.1 hp
  have hcaret : true = false → (tokens p.toList).head? = some (.plain '^') := nofun
  obtain ⟨hdangling, -⟩ := readPattern_framed false hopens hcaret hrun
  obtain ⟨starts, ends, htokens, hstarts⟩ := tokens_anchoredChars hdangling
  obtain ⟨-, hflags, nodes', t', hrun', hframed, hflags'⟩ :=
    readPattern_framed ends hopens hstarts hrun
  refine ⟨_, compile_eq_ok_iff.2 ⟨nodes', t', ?_, rfl⟩, fun s => ?_⟩
  · rwa [toList_anchored, htokens]
  · rw [hflags, hflags']
    exact congrArg Option.isSome (hframed.runRow_eq s.toList.toArray _ rfl)

theorem fails_readRow_caret {first : Bool} {fuel : Nat} {rest : List Tok} {s : Reading}
    (hs : s.rest = .plain '^' :: rest)
    (h : ∀ t, t.rest = rest → Fails (readRow false first fuel [.anchor .lineStart]) t) :
    Fails (readRow false first (fuel + 1) []) s := by
  unfold Fails
  rw [readRow_succ, run_peek_bind, hs, List.head?_cons]
  dsimp only
  rw [if_neg (by decide)]
  refine Fails.bind ?_
  obtain hadvance | ⟨t, hadvance, ht⟩ := fails_or_advance hs
  · exact .inl hadvance
  · refine .inr ⟨(), t, hadvance, ?_⟩
    rw [if_neg nofun]
    exact h t ht

/-- **Switches for the whole pattern are malformed behind an anchor.** -/
theorem malformed_anchored {p : String} (hopens : Opens (tokens p.toList)) :
    Malformed (anchored p) := by
  obtain ⟨rest, htokens, hrest⟩ := hopens.tokens_anchoredChars
  have hfails : Fails (readPattern (rest.length + 1))
      { rest := .plain '^' :: rest, place := 0 } := by
    unfold Fails
    rw [readPattern_eq, run_peek_bind, if_neg nofun]
    refine Fails.bind (.inl ?_)
    rw [readChoice_succ]
    refine Fails.bind (.inl (fails_readRow_caret rfl fun t ht => ?_))
    exact fails_readRow_of_opens hrest ht (List.cons_ne_nil _ _) (by omega)
  obtain ⟨what, place, hrun⟩ := hfails
  refine ⟨what, place, ?_⟩
  rw [compile, parse]
  dsimp only
  rw [toList_anchored, htokens, List.length_cons, hrun]
  rfl

end Regex

/-- **What a pattern comes to between anchors.** It decides about whole headings as it does without
them, unless it opens with switches for the whole pattern: then it is malformed behind the anchor,
and compared as it is written. -/
structure AnsweredWhole (p : String) (P : Regex.Pattern) (h : Heading)
    (answer : Except Fault Bool) : Prop where
  whole : ¬ Regex.Opens (Regex.tokens p.toList) → answer = .ok (P.matchesAll h.written)
  literally : Regex.Opens (Regex.tokens p.toList) → Malformed (anchored p) ∧
    answer = .ok (h.written == withoutEnds (anchored p))

/-- **A matcher decides about patterns as they match whole headings**, but for patterns that open
with switches. -/
theorem answeredWhole_ask {m : Matcher} (hm : m.Faithful) {p : String} {P : Regex.Pattern}
    (hp : Regex.compile p = .ok P) (path : String) (h : Heading) :
    AnsweredWhole p P h (m.ask path ⟨.pattern p, h⟩).answer := by
  rw [hm.answer_ask]
  dsimp only [HeadingSpec.judge]
  refine ⟨fun hopens => ?_, fun hopens => ?_⟩
  · obtain ⟨P', hcompile, hmatches⟩ := Regex.compile_anchored hp hopens
    have husable : usablePattern (anchored p) = .ok (some P') := by
      rw [usablePattern, hcompile]
    rw [husable, ← hmatches]
    rfl
  · have hmal := Regex.malformed_anchored hopens
    rw [hmal.usablePattern]
    exact ⟨hmal, rfl⟩

/-- Whether a text can be read as a pattern that matches another text as a whole. -/
def matchesWhole (p s : String) : Bool :=
  match Regex.compile p with
  | .ok P => P.matchesAll s
  | .error _ => false

theorem matchesWhole_eq_true_iff {p s : String} :
    matchesWhole p s = true ↔ ∃ P, Regex.compile p = .ok P ∧ P.matchesAll s = true := by
  unfold matchesWhole
  cases Regex.compile p with
  | ok P => exact ⟨fun h => ⟨P, rfl, h⟩, fun ⟨P', hP, h⟩ => Except.ok.inj hP ▸ h⟩
  | error e => exact iff_of_false nofun nofun

/-- A heading with the text `Usage`. -/
def headingUsage : Heading := ⟨1, "Usage", 1, 1, "usage"⟩

/-- Each of two alternatives has to match the whole heading. -/
theorem answeredWhole_alternatives : Matcher.Faithful {} ∧
    ∃ P, Regex.compile "# Setup|# U.*" = .ok P ∧ P.matchesAll headingUsage.written = true ∧
      AnsweredWhole "# Setup|# U.*" P headingUsage
        (Matcher.ask {} "a.md" ⟨.pattern "# Setup|# U.*", headingUsage⟩).answer := by
  have hmatches : matchesWhole "# Setup|# U.*" headingUsage.written = true := by decide +kernel
  obtain ⟨P, hP, hall⟩ := matchesWhole_eq_true_iff.1 hmatches
  exact ⟨Matcher.faithful_empty, P, hP, hall,
    answeredWhole_ask Matcher.faithful_empty hP "a.md" headingUsage⟩

/-- **A pattern that opens with a switch** matches a heading that it is not found to match. -/
theorem ask_openingSwitch : ∃ P, Regex.compile "(?i)# usage" = .ok P ∧
    P.matchesAll headingUsage.written = true ∧
    (Matcher.ask {} "a.md" ⟨.pattern "(?i)# usage", headingUsage⟩).answer = .ok false := by
  have hmatches : matchesWhole "(?i)# usage" headingUsage.written = true := by decide +kernel
  obtain ⟨P, hP, hall⟩ := matchesWhole_eq_true_iff.1 hmatches
  refine ⟨P, hP, hall, ?_⟩
  decide +kernel

end Outline

import Outline.Proofs.Yaml.Unquoted
import Outline.Yaml.Token

/-!
# One token of a line

What the search for tokens does on a text of one line. From one state it arrives at another, in
which the characters of the next token come first (`Arrives`), and for each kind of token a line of
a template has, there is **the state behind it** (`next_quoted`, `next_opening`, `next_closing`,
`next_comma`); before a plain text, a colon and the end, the way that is taken from there.

* `Passed`: what stands between two tokens;
* `Yields`: the tokens from a state on, and how many steps they take.
-/

namespace Outline.Yaml

namespace Scan

variable {s s' : Scan} {rest : List Char} {i : Nat}

theorem run_read {α : Type} {r : Read α} {a : α} {k : Cursor} (h : r.run s.cursor = .ok (a, k)) :
    (read r).run s = .ok (a, { s with cursor := k }) := by
  rw [read, run_bind_ok rfl, h]
  rfl

/-! ## On the way to a token -/

/-- What is passed over on the way to the next token of a line: spaces, and a comment up to its
end. -/
inductive Passed : List Char → List Char → Prop
  | spaces {gap rest : List Char} (hgap : Gap gap rest) (hnote : rest.head? ≠ some '#') :
      Passed gap rest
  | comment {gap note : List Char} (hspaces : ∀ c ∈ gap, c = ' ') (hnote : note.head? = some '#')
      (hinline : ∀ c ∈ note, isInline c = true) : Passed (gap ++ note) []

/-- A character that is not passed over. -/
def standsOut (c : Char) : Bool := c != ' ' && c != '#' && !isBreakChar c

theorem passed_cons {gap : List Char} {c : Char} (hgap : ∀ d ∈ gap, d = ' ')
    (hc : standsOut c = true) : Passed gap (c :: rest) := by
  simp only [standsOut, Bool.and_eq_true, bne_iff_ne, Bool.not_eq_true'] at hc
  obtain ⟨⟨hspace, hnote⟩, hbreak⟩ := hc
  refine .spaces ⟨hgap, by simpa using hspace, ?_⟩ (by simpa using hnote)
  intro d hd
  cases hd
  exact hbreak

theorem run_toNextToken {passed : List Char} (h : Passed passed rest)
    (hcursor : s.cursor = onLine i (passed ++ rest)) (fuel : Nat) :
    (toNextToken (fuel + 1)).run s =
      .ok ((), { s with cursor := onLine (i + passed.length) rest }) := by
  obtain ⟨k, hspaces, hcomment⟩ : ∃ k, Read.spaces.run s.cursor = .ok ((), k) ∧
      Read.comment.run k = .ok ((), onLine (i + passed.length) rest) := by
    rw [hcursor]
    cases h with
    | spaces hgap hnote => exact ⟨_, run_spaces hgap i, run_comment_of_ne hnote _⟩
    | @comment gap note hspaces hnote hinline =>
      have hgap : Gap gap (note ++ []) := by
        refine ⟨hspaces, by simp [hnote], fun c hc => ?_⟩
        rw [List.append_nil, hnote] at hc
        cases hc
        decide
      refine ⟨_, by rw [List.append_assoc]; exact run_spaces hgap i, ?_⟩
      rw [List.append_nil, run_comment hnote hinline, List.length_append, Nat.add_assoc]
  have hbreak : NoBreak rest := by
    cases h with
    | spaces hgap => exact hgap.noBreak
    | comment => exact fun c hc => nomatch hc
  rw [toNextToken, run_bind_ok (run_read hspaces), run_bind_ok (run_read hcomment),
    run_bind_ok (run_read (run_lineBreak_of_noBreak hbreak _))]
  rfl

/-- The places of keys are near enough to the cursor. -/
def NearKeys (s : Scan) : Prop :=
  ∀ e ∈ s.keys, e.2.line = s.cursor.line ∧ s.cursor.index ≤ 1024 + e.2.index

theorem run_dropStaleKeys (h : s.NearKeys) : dropStaleKeys.run s = .ok ((), s) := by
  have hkeep : ∀ e ∈ s.keys,
      (e.2.line != s.cursor.line || decide (1024 < s.cursor.index - e.2.index)) = false := by
    intro e he
    obtain ⟨hline, hindex⟩ := h e he
    have hfar : ¬1024 < s.cursor.index - e.2.index := by omega
    simp [hline, hfar]
  have hnone : s.keys.any (fun e => (e.2.line != s.cursor.line ||
      decide (1024 < s.cursor.index - e.2.index)) && e.2.needed) = false :=
    List.any_eq_false.2 fun e he => by simp [hkeep e he]
  have hall : s.keys.filter (fun e => !(e.2.line != s.cursor.line ||
      decide (1024 < s.cursor.index - e.2.index))) = s.keys :=
    List.filter_eq_self.2 fun e he => by rw [hkeep e he]; rfl
  rw [dropStaleKeys, run_bind_ok rfl]
  dsimp only
  rw [hnone, hall]
  rfl

theorem run_closeDeeper {column : Int} (h : s.depth ≠ 0 ∨ s.indent ≤ column) :
    (closeDeeper column).run s = .ok ((), s) := by
  rw [closeDeeper, run_bind_ok rfl]
  dsimp only
  by_cases hdepth : s.depth = 0
  · have hindent : ¬column < s.indent := Int.not_lt.2 (h.resolve_left (not_not_intro hdepth))
    rw [if_pos (beq_iff_eq.2 hdepth)]
    simp [hindent]
    rfl
  · rw [if_neg (mt beq_iff_eq.1 hdepth)]
    rfl

/-- From one state the way to the next token leads to another, in which its characters are next. -/
structure Arrives (s s' : Scan) : Prop where
  passes : ∀ fuel, (toNextToken (fuel + 1) >>= fun _ => dropStaleKeys).run s = .ok ((), s')
  stays : (closeDeeper s'.cursor.column).run s' = .ok ((), s')

theorem Arrives.run {α : Type} (h : Arrives s s') (f : Scan → Scanning α) (fuel : Nat) :
    (do
      toNextToken (fuel + 1)
      dropStaleKeys
      closeDeeper (← get).cursor.column
      f (← get) : Scanning α).run s = (f s').run s' := by
  rw [← bind_assoc, run_bind_ok (h.passes fuel), run_bind_ok rfl, run_bind_ok h.stays,
    run_bind_ok rfl]

theorem arrives (passed : List Char) (h : Passed passed rest)
    (hcursor : s.cursor = onLine i (passed ++ rest))
    (hkeys : ∀ e ∈ s.keys, e.2.line = 0 ∧ i + passed.length ≤ 1024 + e.2.index)
    (hindent : s.depth ≠ 0 ∨ s.indent ≤ (i + passed.length : Nat)) :
    Arrives s { s with cursor := onLine (i + passed.length) rest } where
  passes fuel := by
    rw [run_bind_ok (run_toNextToken h hcursor fuel)]
    exact run_dropStaleKeys hkeys
  stays := run_closeDeeper hindent

/-! ## Tokens -/

theorem run_rememberKey_of_not (h : s.keyAllowed = false) :
    rememberKey.run s = .ok ((), s) := by
  rw [rememberKey, run_bind_ok rfl, if_neg (by simp [h])]
  rfl

theorem run_forgetKey (h : ∀ e ∈ s.keys, e.2.needed = false) :
    forgetKey.run s = .ok ((), { s with keys := s.keys.filter (·.1 != s.depth) }) := by
  have hneeded : (s.keyHere?.map (·.needed)).getD false = false := by
    unfold keyHere?
    cases hfind : s.keys.find? (·.1 == s.depth) with
    | none => rfl
    | some e => exact h e (List.mem_of_find?_eq_some hfind)
  rw [forgetKey, run_bind_ok rfl]
  dsimp only
  rw [hneeded]
  rfl

/-- Signs that no plain text begins with. -/
def signs : List Char := ['%', '[', '{', ']', '}', ',', '*', '&', '!', '|', '>', '\'', '"']

theorem ne_sign_of_beginsPlain {c : Char} {next : Option Char}
    (h : beginsPlain false c next = true) : ∀ d ∈ signs, (c == d) = false := by
  have hnone : ∀ gap : Bool, ∀ d ∈ signs,
      (!(isBlankGap (some d) || "-?:,[]\x7b\x7d#&*!|>'\"%@\x60".toList.contains d) ||
        (!gap && (d == '-' || (!false && (d == '?' || d == ':'))))) = false := by decide
  intro d hd
  rw [beq_eq_false_iff_ne]
  rintro rfl
  rw [beginsPlain, hnone _ c hd] at h
  cases h

theorem not_gap_of_beginsPlain {c : Char} {next : Option Char}
    (h : beginsPlain false c next = true) (hc : c = '-' ∨ c = '?' ∨ c = ':') :
    isBlankGap next = false := by
  rcases hc with rfl | rfl | rfl <;> simpa [beginsPlain, isBlankGap] using h

theorem beginsPlain_of_none {c : Char} (h : beginsPlain false c none = true)
    (more : List Char) : beginsPlain false c more.head? = true := by
  rw [beginsPlain, Bool.or_eq_true] at h ⊢
  exact .inl (h.resolve_right (by simp [isBlankGap]))

theorem beginsPlain_append {c : Char} {cs : List Char} (h : beginsPlain false c cs.head? = true)
    (more : List Char) : beginsPlain false c (cs ++ more).head? = true := by
  cases cs with
  | nil => exact beginsPlain_of_none h more
  | cons d cs => exact h

theorem next_eq_plain {c : Char} (h : Arrives s s') (hcursor : s'.cursor = onLine i (c :: rest))
    (hdepth : s'.depth = 0) (hbegins : beginsPlain false c rest.head? = true)
    (hcolumn : i = 0 → c ≠ '-' ∧ c ≠ '.') (fuel : Nat) :
    (next (fuel + 1)).run s = (do plain; return true : Scanning Bool).run s' := by
  have hgap := not_gap_of_beginsPlain hbegins
  have hsigns := ne_sign_of_beginsPlain hbegins
  simp only [signs, List.forall_mem_cons] at hsigns
  obtain ⟨hpercent, hopen, hbrace, hclose, hunbrace, hcomma, hstar, hand, hbang, hbar, hmore,
    hquote, hquotes, -⟩ := hsigns
  rw [next, h.run]
  simp only [hcursor, rest_onLine, column_onLine, hpercent, hopen, hbrace, hclose, hunbrace, hcomma,
    hstar, hand, hbang, hbar, hmore, hquote, hquotes, hdepth, Bool.false_and, Bool.or_self,
    Bool.false_eq_true, if_false, beq_self_eq_true, Bool.not_true, Bool.false_or]
  -- what is left of the signs: marks of documents, and hyphens and such before a blank
  rw [if_neg, if_neg, if_neg, if_neg, if_neg, if_pos hbegins]
  all_goals simp only [Bool.and_eq_true, beq_iff_eq, not_and, Bool.not_eq_true]
  · exact fun hc => hgap (.inr (.inr hc))
  · exact fun hc => hgap (.inr (.inl hc))
  · exact fun hc => hgap (.inl hc)
  · exact fun hc => absurd hc.1 (hcolumn hc.2).2
  · exact fun hc => absurd hc.1 (hcolumn hc.2).1

theorem run_plain {cs gap : List Char} {t : Scan} (hkey : rememberKey.run s = .ok ((), t))
    (hcursor : t.cursor = onLine i (cs ++ (gap ++ rest))) (hdepth : t.depth = 0)
    (houter : t.indent < i) (hcs : Unquoted cs) (hbehind : Behind gap rest) :
    plain.run s = .ok ((), { t with
      cursor := onLine (i + cs.length + gap.length) rest
      keyAllowed := false
      tokens := .scalar (String.ofList cs) true :: t.tokens
      count := t.count + 1 }) := by
  have hread : (plainScalar (t.depth != 0) t.indent).run t.cursor =
      .ok ((String.ofList cs, false), onLine (i + cs.length + gap.length) rest) := by
    rw [hcursor, hdepth]
    exact run_plainScalar hcs hbehind houter
  rw [plain, run_bind_ok hkey, run_bind_ok rfl, run_bind_ok (run_read hread)]
  rfl

theorem next_quoted {text : List Char} {t : Scan} (h : Arrives s s')
    (hcursor : s'.cursor = onLine i ('"' :: text ++ '"' :: rest))
    (hkey : rememberKey.run s' = .ok ((), t)) (hplace : t.cursor = s'.cursor)
    (hsolid : ∀ c ∈ text, isSolid c = true) (hinline : ∀ c ∈ text, isInline c = true) (fuel : Nat) :
    (next (fuel + 1)).run s = .ok (true, { t with
      cursor := onLine (i + (text.length + 2)) rest
      keyAllowed := false
      tokens := .scalar (String.ofList text) false :: t.tokens
      count := t.count + 1 }) := by
  have hread : (do return .scalar (← quotedScalar '"') false : Read Token).run t.cursor =
      .ok (.scalar (String.ofList text) false, onLine (i + (text.length + 2)) rest) := by
    rw [hplace, hcursor, run_bind_ok (run_quotedScalar hsolid hinline i)]
    rfl
  rw [next, h.run]
  dsimp only
  rw [hcursor]
  change (do keyStart (do return .scalar (← quotedScalar '"') false); return true :
    Scanning Bool).run s' = _
  have hread' : (read (do return Token.scalar (← quotedScalar '"') false)).run
    { t with keyAllowed := false } = _ := run_read hread
  rw [keyStart, bind_assoc, run_bind_ok hkey, bind_assoc, run_bind_ok rfl, bind_assoc,
    run_bind_ok hread']
  rfl

theorem next_opening (h : Arrives s s') (hcursor : s'.cursor = onLine i ('[' :: rest))
    (hkey : s'.keyAllowed = false) (fuel : Nat) :
    (next (fuel + 1)).run s = .ok (true, { s' with
      cursor := onLine (i + 1) rest
      depth := s'.depth + 1
      keyAllowed := true
      tokens := .flowSequenceStart :: s'.tokens
      count := s'.count + 1 }) := by
  rw [next, h.run]
  dsimp only
  rw [hcursor]
  change (do opening .flowSequenceStart; return true : Scanning Bool).run s' = _
  rw [opening, bind_assoc, run_bind_ok (run_rememberKey_of_not hkey)]
  obtain ⟨k, depth, indent, outer, allowed, keys, tokens, count⟩ := s'
  subst hcursor
  rfl

theorem next_closing (h : Arrives s s') (hcursor : s'.cursor = onLine i (']' :: rest))
    (hdepth : s'.depth ≠ 0) (hkeys : ∀ e ∈ s'.keys, e.2.needed = false) (fuel : Nat) :
    (next (fuel + 1)).run s = .ok (true, { s' with
      cursor := onLine (i + 1) rest
      depth := s'.depth - 1
      keyAllowed := false
      keys := s'.keys.filter (·.1 != s'.depth)
      tokens := .flowSequenceEnd :: s'.tokens
      count := s'.count + 1 }) := by
  rw [next, h.run]
  dsimp only
  rw [hcursor]
  change (do closing .flowSequenceEnd; return true : Scanning Bool).run s' = _
  rw [closing, bind_assoc, run_bind_ok rfl, if_neg (by simpa using hdepth), bind_assoc,
    run_bind_ok (run_forgetKey hkeys)]
  obtain ⟨k, depth, indent, outer, allowed, keys, tokens, count⟩ := s'
  subst hcursor
  rfl

theorem next_comma (h : Arrives s s') (hcursor : s'.cursor = onLine i (',' :: rest))
    (hkeys : ∀ e ∈ s'.keys, e.2.needed = false) (fuel : Nat) :
    (next (fuel + 1)).run s = .ok (true, { s' with
      cursor := onLine (i + 1) rest
      keyAllowed := true
      keys := s'.keys.filter (·.1 != s'.depth)
      tokens := .flowEntry :: s'.tokens
      count := s'.count + 1 }) := by
  rw [next, h.run]
  dsimp only
  rw [hcursor]
  change (do comma; return true : Scanning Bool).run s' = _
  have hforget : forgetKey.run { s' with keyAllowed := true } = _ := run_forgetKey hkeys
  rw [comma, bind_assoc, run_bind_ok rfl, bind_assoc, run_bind_ok hforget]
  obtain ⟨k, depth, indent, outer, allowed, keys, tokens, count⟩ := s'
  subst hcursor
  rfl

theorem next_colon (h : Arrives s s') (hcursor : s'.cursor = onLine i (':' :: rest))
    (hgap : isBlankGap rest.head? = true) (fuel : Nat) :
    (next (fuel + 1)).run s = (do colon; return true : Scanning Bool).run s' := by
  rw [next, h.run]
  dsimp only
  rw [hcursor]
  simp only [rest_onLine, column_onLine, hgap, Bool.or_true, Bool.and_true]
  rfl

theorem next_end (h : Arrives s s') (hcursor : s'.cursor = onLine i []) (fuel : Nat) :
    (next (fuel + 1)).run s = (do boundary 0 .streamEnd; return false : Scanning Bool).run s' := by
  rw [next, h.run]
  dsimp only
  rw [hcursor]
  rfl

/-! ## All tokens -/

/-- The state at the front of a text. -/
def firstState (text : List Char) : Scan := ⟨onLine 0 text, 0, -1, [], true, [], [], 0⟩

/-- From a state, at most `k` steps lead to the end of the text, with certain tokens, the latest
first. -/
def Yields (k : Nat) (s : Scan) (ts : List Token) : Prop :=
  ∀ width fuel, ∃ s', (all (width + 1) (fuel + k)).run s = .ok ((), s') ∧ s'.tokens = ts

theorem Yields.step {k : Nat} {ts : List Token} (h : Yields k s' ts)
    (hnext : ∀ width, (next (width + 1)).run s = .ok (true, s')) : Yields (k + 1) s ts := by
  intro width fuel
  obtain ⟨t, hall, ht⟩ := h width fuel
  rw [← Nat.add_assoc, all, run_bind_ok (hnext width)]
  exact ⟨t, hall, ht⟩

theorem Yields.end (s' : Scan) (hnext : ∀ width, (next (width + 1)).run s = .ok (false, s')) :
    Yields 1 s s'.tokens := by
  intro width fuel
  rw [all, run_bind_ok (hnext width)]
  exact ⟨s', rfl, rfl⟩

end Scan

open Scan

theorem tokens_eq {text : List Char} (hmark : text.head? ≠ some '\uFEFF') :
    tokens text =
      if text.all isYamlChar then do
        let ((), s) ← (all (text.length + 2) (text.length + 2)).run (firstState text)
        return s.tokens.reverse
      else .error .notYaml := by
  have hfront : (text.head? == some '\uFEFF') = false := beq_eq_false_iff_ne.2 hmark
  unfold tokens
  rw [hfront]
  cases text.all isYamlChar <;> rfl

theorem tokens_of_yields {k : Nat} {text : List Char} {ts : List Token}
    (h : Yields k (firstState text) ts) (hk : k ≤ text.length + 2)
    (hyaml : text.all isYamlChar = true) (hmark : text.head? ≠ some '\uFEFF') :
    tokens text = .ok ts.reverse := by
  obtain ⟨fuel, hfuel⟩ : ∃ fuel, text.length + 2 = fuel + k := ⟨_, (Nat.sub_add_cancel hk).symm⟩
  obtain ⟨s', hall, rfl⟩ := h (text.length + 1) fuel
  rw [← hfuel] at hall
  rw [tokens_eq hmark, if_pos hyaml, hall]
  rfl

end Outline.Yaml

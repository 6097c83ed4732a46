import Mathlib.Algebra.Ring.Parity
import Mathlib.Data.List.DropRight
import Outline.Proofs.Except
import Outline.Proofs.Structure.Pass

/-!
# Words of findings

Findings say what they found in fixed words with quoted values between them. A quoted text can be
read back from the front of any text (`readQuoted?_eq_some_iff`), as each quote in it stands behind
an odd number of backslashes. Hence **findings with the same words come from one pass and quote the
same values** (`quoting_unambiguous`), whatever quotes, backslashes or fixed words are in these.

* `readQuoted?`, `unquoted?`: a quoted text at the front of others, and one on its own;
* `Pass.opening`, `Pass.behind`: the words around the first value;
* `Finding.values`: the values that a finding quotes.
-/

namespace Outline

/-! ## Reading quoted texts -/

/-- A text up to the quote that closes it, and what stands behind; a backslash stands before each
other quote and each backslash, and nowhere else. -/
def readEscaped? : List Char → Option (List Char × List Char)
  | [] => none
  | ['\\'] => none
  | '"' :: rest => some ([], rest)
  | '\\' :: c :: rest =>
    if c == '\\' || c == '"' then (readEscaped? rest).map fun p => (c :: p.1, p.2) else none
  | c :: rest => (readEscaped? rest).map fun p => (c :: p.1, p.2)

/-- The text that stands quoted at the front of another one, and what stands behind. -/
def readQuoted? : List Char → Option (List Char × List Char)
  | '"' :: rest => readEscaped? rest
  | _ => none

/-- The text whose quoted form this is. -/
def unquoted? (s : String) : Option String :=
  match readQuoted? s.toList with
  | some (text, []) => some (String.ofList text)
  | _ => none

theorem toList_quoted (s : String) : (quoted s).toList = '"' :: escapeQuotes s.toList ++ ['"'] :=
  String.toList_ofList

theorem readEscaped?_escapeQuotes (cs rest : List Char) :
    readEscaped? (escapeQuotes cs ++ '"' :: rest) = some (cs, rest) := by
  induction cs with
  | nil => rfl
  | cons c cs ih =>
    by_cases hslash : c = '\\'
    · subst hslash
      simp [escapeQuotes, readEscaped?, ih]
    by_cases hquote : c = '"'
    · subst hquote
      simp [escapeQuotes, readEscaped?, ih]
    · simp [escapeQuotes, readEscaped?, hslash, hquote, ih]

theorem eq_of_readEscaped? {cs text rest : List Char} (h : readEscaped? cs = some (text, rest)) :
    cs = escapeQuotes text ++ '"' :: rest := by
  fun_induction readEscaped? cs generalizing text with
  | case1 => cases h
  | case2 => cases h
  | case3 rest => cases h; rfl
  | case4 c rest hc ih =>
    obtain ⟨⟨text, rest⟩, hread, h⟩ := Option.map_eq_some_iff.1 h
    cases h
    rw [ih hread, escapeQuotes, if_pos hc]
    rfl
  | case5 => cases h
  | case6 c rest hslash hquote hescaped ih =>
    obtain ⟨⟨text, _⟩, hread, h⟩ := Option.map_eq_some_iff.1 h
    cases h
    have hc : ¬ (c == '\\' || c == '"') = true := by
      rw [Bool.or_eq_true, beq_iff_eq, beq_iff_eq]
      rintro (hc | hc)
      · cases hbehind : rest with
        | nil => exact hslash hc hbehind
        | cons d rest => exact hescaped d rest hc hbehind
      · exact hquote hc
    rw [ih hread, escapeQuotes, if_neg hc]
    rfl

theorem readQuoted?_eq_some_iff {cs text rest : List Char} :
    readQuoted? cs = some (text, rest) ↔ cs = '"' :: escapeQuotes text ++ '"' :: rest := by
  constructor
  · intro h
    unfold readQuoted? at h
    split at h
    · exact congrArg ('"' :: ·) (eq_of_readEscaped? h)
    · cases h
  · rintro rfl
    exact readEscaped?_escapeQuotes text rest

/-- **A quoted text can be read back, and nothing else can.** -/
theorem unquoted?_eq_some_iff {s a : String} : unquoted? s = some a ↔ s = quoted a := by
  have hread (text rest : List Char) : readQuoted? s.toList = some (text, rest) ↔
      s.toList = '"' :: escapeQuotes text ++ '"' :: rest := readQuoted?_eq_some_iff
  rw [← String.toList_inj, toList_quoted, ← hread]
  unfold unquoted?
  split
  · rename_i text htext
    rw [htext]
    simp [← String.toList_inj]
  · rename_i hnone
    refine iff_of_false nofun fun h => hnone _ h

theorem quoted_injective : Function.Injective quoted := fun _ _ h =>
  Option.some.inj ((unquoted?_eq_some_iff.2 rfl).symm.trans (unquoted?_eq_some_iff.2 h))

/-- Quoted texts are told apart from what stands behind them. -/
theorem quoted_append_inj {a b s t : String} :
    quoted a ++ s = quoted b ++ t ↔ a = b ∧ s = t := by
  refine ⟨fun h => ?_, by rintro ⟨rfl, rfl⟩; rfl⟩
  have hlist := congrArg String.toList h
  simp only [String.toList_append, toList_quoted, List.append_assoc, List.singleton_append] at hlist
  have hread := (readQuoted?_eq_some_iff.2 rfl).symm.trans (readQuoted?_eq_some_iff.2 hlist)
  simpa [String.toList_inj] using hread

/-! ## Backslashes -/

/-- The number of backslashes at the end of a text. -/
def backslashesAtEnd (cs : List Char) : Nat := (cs.rtakeWhile (· == '\\')).length

theorem backslashesAtEnd_cons (c : Char) (cs : List Char) : backslashesAtEnd (c :: cs) =
    if cs.all (· == '\\') && c == '\\' then cs.length + 1 else backslashesAtEnd cs := by
  unfold backslashesAtEnd List.rtakeWhile
  rw [List.length_reverse, List.length_reverse, List.reverse_cons, List.takeWhile_append]
  by_cases hall : cs.all (· == '\\') = true
  · have hcs : cs.reverse.takeWhile (· == '\\') = cs.reverse := by
      rw [List.takeWhile_eq_self_iff]
      simpa using hall
    by_cases hc : c = '\\' <;> simp [hall, hcs, hc]
  · have hne : (cs.reverse.takeWhile (· == '\\')).length ≠ cs.reverse.length := by
      intro heq
      have hcs := (List.takeWhile_prefix _).eq_of_length heq
      exact hall (by simpa using List.takeWhile_eq_self_iff.1 hcs)
    rw [if_neg hne]
    simp [hall]

theorem backslashesAtEnd_cons_of_ne {c : Char} (h : c ≠ '\\') (cs : List Char) :
    backslashesAtEnd (c :: cs) = backslashesAtEnd cs := by
  simp [backslashesAtEnd_cons, h]

/-- Behind two backslashes more, an odd number of them is still odd. -/
theorem odd_backslashesAtEnd_pair {cs : List Char} (h : Odd (backslashesAtEnd cs)) :
    Odd (backslashesAtEnd ('\\' :: '\\' :: cs)) := by
  rw [backslashesAtEnd_cons, backslashesAtEnd_cons]
  by_cases hall : cs.all (· == '\\') = true
  · have hcs : backslashesAtEnd cs = cs.length := by
      rw [backslashesAtEnd, List.rtakeWhile_eq_self_iff.2 (by simpa using hall)]
    rw [if_pos (by simpa using hall), List.length_cons, ← hcs]
    exact h.add_even even_two
  · rw [if_neg (by simpa using hall), if_neg (by simpa using hall)]
    exact h

/-- **A quote in an escaped text stands behind an odd number of backslashes.** -/
theorem odd_backslashesAtEnd {cs before after : List Char}
    (h : escapeQuotes cs = before ++ '"' :: after) : Odd (backslashesAtEnd before) := by
  induction cs generalizing before with
  | nil => simp [escapeQuotes] at h
  | cons c cs ih =>
    unfold escapeQuotes at h
    split at h
    · rename_i hc
      -- the quote is the escaped character, or stands behind it
      rcases before with _ | ⟨a, _ | ⟨b, before⟩⟩
      · exact absurd (List.cons.inj h).1 (by decide)
      · rw [← (List.cons.inj h).1]
        decide
      · simp only [List.cons_append, List.cons.injEq] at h
        obtain ⟨rfl, rfl, h⟩ := h
        by_cases hslash : c = '\\'
        · rw [hslash]
          exact odd_backslashesAtEnd_pair (ih h)
        · have hsame : backslashesAtEnd ('\\' :: c :: before) = backslashesAtEnd before := by
            simp [backslashesAtEnd_cons, hslash]
          rw [hsame]
          exact ih h
    · rename_i hc
      rcases before with _ | ⟨a, before⟩
      · obtain ⟨rfl, -⟩ := List.cons.inj h
        exact absurd rfl hc
      · simp only [List.cons_append, List.cons.injEq] at h
        obtain ⟨rfl, h⟩ := h
        have hslash : c ≠ '\\' := fun heq => hc (by simp [heq])
        rw [backslashesAtEnd_cons_of_ne hslash]
        exact ih h

/-- Escaping a text is to double its backslashes, and then to put one before each quote. -/
theorem escapeQuotes_eq (cs : List Char) : escapeQuotes cs =
    (cs.flatMap fun c => if c = '\\' then ['\\', '\\'] else [c]).flatMap
      fun c => if c = '"' then ['\\', '"'] else [c] := by
  induction cs with
  | nil => rfl
  | cons c cs ih =>
    by_cases hslash : c = '\\'
    · simp [escapeQuotes, hslash, ih]
    · by_cases hquote : c = '"' <;> simp [escapeQuotes, hslash, hquote, ih]

/-! ## Words around values -/

/-- The words before the first value in the findings of a pass. -/
def Pass.opening : Pass → String
  | .wrongFirst => "First heading under "
  | .unexpected => "Unexpected section "
  | .missing => "Required element "
  | .misplaced => "Element "
  | .tooFew => "Element "

/-- The words behind the first value in the findings of a pass. -/
def Pass.behind : Pass → String
  | .wrongFirst => " is "
  | .unexpected => " found under "
  | .missing => " not found within "
  | .misplaced => " should appear after "
  | .tooFew => " expected at least "

namespace Finding

/-- The values that a finding quotes, in the order of its words. -/
def values : Finding → List String
  | .wrongFirst parent found expected => [parent, found.written, expected.heading.display]
  | .unexpected parent found => [found.written, parent]
  | .missing parent expected _ => [expected.heading.display, parent]
  | .misplaced _ found after => [found.text, after]
  | .tooFew expected _ _ => [expected.heading.display]

/-- The words of a finding begin with the words of its pass around the first value. -/
theorem message_eq {f : Finding} {words : String} (h : f.message = .ok words) :
    ∃ more, words = f.pass.opening ++ (quoted (f.values.headD "") ++ (f.pass.behind ++ more)) := by
  cases f with
  | tooFew expected found place =>
    obtain ⟨least, -, h⟩ := bind_eq_ok.1 h
    cases h
    simp only [String.append_assoc]
    exact ⟨_, rfl⟩
  | _ =>
    cases h
    simp only [String.append_assoc]
    exact ⟨_, rfl⟩

end Finding

theorem Pass.length_opening_pos (p : Pass) : 0 < p.opening.toList.length := by
  cases p <;> decide

theorem Pass.one_lt_length_behind (p : Pass) : 1 < p.behind.toList.length := by
  cases p <;> decide

/-- The words around the first value tell which pass they belong to. -/
theorem Pass.eq_of_words {p q : Pass} {v w more more' : String}
    (h : p.opening ++ (quoted v ++ (p.behind ++ more)) =
      q.opening ++ (quoted w ++ (q.behind ++ more'))) : p = q := by
  have hfirst : p.opening.toList[0]? = q.opening.toList[0]? := by
    have hchar := congrArg (fun s => s.toList[0]?) h
    simp only [String.toList_append] at hchar
    rwa [List.getElem?_append_left p.length_opening_pos,
      List.getElem?_append_left q.length_opening_pos] at hchar
  have hopening : p.opening = q.opening := by
    revert hfirst
    cases p <;> cases q <;> decide
  rw [hopening, String.append_right_inj, quoted_append_inj] at h
  have hsecond : p.behind.toList[1]? = q.behind.toList[1]? := by
    have hchar := congrArg (fun s => s.toList[1]?) h.2
    simp only [String.toList_append] at hchar
    rwa [List.getElem?_append_left p.one_lt_length_behind,
      List.getElem?_append_left q.one_lt_length_behind] at hchar
  revert hsecond
  cases p <;> cases q <;> decide

namespace Finding

variable {f g : Finding} {words : String}

theorem pass_eq_of_message (hf : f.message = .ok words) (hg : g.message = .ok words) :
    f.pass = g.pass := by
  obtain ⟨more, hmore⟩ := message_eq hf
  obtain ⟨more', hmore'⟩ := message_eq hg
  exact Pass.eq_of_words (hmore.symm.trans hmore')

/-- Findings of one pass with the same words quote the same values. -/
theorem values_eq_of_message (hf : f.message = .ok words) (hg : g.message = .ok words)
    (hpass : f.pass = g.pass) : f.values = g.values := by
  cases f <;> cases g <;> cases hpass
  case tooFew expected found place expected' found' place' =>
    obtain ⟨more, hmore⟩ := message_eq hf
    obtain ⟨more', hmore'⟩ := message_eq hg
    have h := (String.append_right_inj _).1 (hmore.symm.trans hmore')
    exact congrArg (fun v => [v]) (quoted_append_inj.1 h).1
  all_goals
    have h := Except.ok.inj (hf.trans hg.symm)
    simp only [String.append_assoc, String.append_right_inj, quoted_append_inj,
      quoted_injective.eq_iff] at h
    simp only [values, h]

end Finding

/-- **Quoting is unambiguous.** A quoted text is one with doubled backslashes, a backslash before
each quote, and quotes around it. It tells which text was quoted, which can be read back from it;
between its outer quotes, each quote stands behind an odd number of backslashes. And findings with
the same words come from one pass and quote the same values. -/
theorem quoting_unambiguous :
    (∀ a, (quoted a).toList = '"' ::
      ((a.toList.flatMap fun c => if c = '\\' then ['\\', '\\'] else [c]).flatMap
        fun c => if c = '"' then ['\\', '"'] else [c]) ++ ['"']) ∧
    (∀ a b, quoted a = quoted b → a = b) ∧
    (∀ s a, unquoted? s = some a ↔ s = quoted a) ∧
    (∀ a before after, (quoted a).toList = '"' :: before ++ '"' :: after → after ≠ [] →
      Odd (backslashesAtEnd before)) ∧
    ∀ f g : Finding, ∀ words, f.message = .ok words → g.message = .ok words →
      f.pass = g.pass ∧ f.values = g.values := by
  refine ⟨fun a => ?_, fun _ _ h => quoted_injective h, fun _ _ => unquoted?_eq_some_iff, ?_, ?_⟩
  · rw [toList_quoted, escapeQuotes_eq]
  · intro a before after h hafter
    obtain rfl | ⟨inner, last, rfl⟩ := after.eq_nil_or_concat
    · exact absurd rfl hafter
    · have hinner : escapeQuotes a.toList ++ ['"'] = (before ++ '"' :: inner) ++ [last] := by
        simpa [toList_quoted] using h
      exact odd_backslashesAtEnd (List.append_inj_left' hinner rfl)
  · intro f g words hf hg
    have hpass := Finding.pass_eq_of_message hf hg
    exact ⟨hpass, Finding.values_eq_of_message hf hg hpass⟩

/-- A heading with the words of a finding in it, between quotes and before a backslash. -/
def wordyHeading (line : Nat) : Heading := ⟨1, "a\" found under \"b\\", line, 3, ""⟩

/-- The words of the finding come back from its own, and do not depend on its place. -/
theorem quoting_wordyHeading :
    unquoted? (quoted (wordyHeading 1).text) = some (wordyHeading 1).text ∧
    Odd (backslashesAtEnd ['a', '\\']) ∧
    ∃ words, (Finding.unexpected "\"" (wordyHeading 1)).message = .ok words ∧
      (Finding.unexpected "\"" (wordyHeading 7)).message = .ok words ∧
      (Finding.unexpected "\"" (wordyHeading 1)).values =
        (Finding.unexpected "\"" (wordyHeading 7)).values := by
  obtain ⟨-, -, hread, hodd, hwords⟩ := quoting_unambiguous
  exact ⟨(hread _ _).2 rfl, hodd (wordyHeading 1).text ['a', '\\'] _ rfl (List.cons_ne_nil _ _),
    _, rfl, rfl, (hwords _ _ _ rfl rfl).2⟩

end Outline

import Outline.Proofs.Text.Digits
import Outline.Proofs.Yaml.Steps
import Outline.Yaml.Load

/-!
# The tokens of an entry

A line with a name of ASCII letters, a colon and a value **has the tokens of a mapping with one
entry**, whether the value is a plain text (`tokens_plainEntry`), a text between double quotes
(`tokens_quotedEntry`), or two of these in brackets (`tokens_itemsEntry`). Each is a run over the
states between the tokens: `nameState`, `valueState` and, between brackets, `itemState`.

* `Lettered`: such names;
* `isPlainLine`: texts that can stand behind the colon without quotes.
-/

namespace Outline.Yaml

open Scan

variable {name rest : List Char} {i : Nat}

/-! ## Names -/

/-- A name written with ASCII letters. -/
structure Lettered (name : List Char) : Prop where
  nonempty : name ≠ []
  letters : ∀ c ∈ name, isAsciiLetter c = true

namespace Lettered

theorem head?_ne (h : Lettered name) {c : Char} (hc : isAsciiLetter c = false) :
    name.head? ≠ some c := by
  intro hhead
  rw [h.letters c (List.mem_of_mem_head? hhead)] at hc
  cases hc

theorem unquoted (h : Lettered name) : Unquoted name where
  nonempty := h.nonempty
  noSpace := h.head?_ne (by decide)
  noComment := h.head?_ne (by decide)
  goesOn := goesOnAll_of_steady fun c hc => forall_letter isSteady (by decide) (h.letters c hc)

theorem passed (h : Lettered name) (rest : List Char) : Passed [] (name ++ rest) := by
  have hhead := h.unquoted.head?_append rest
  exact .spaces (.nil (hhead ▸ h.unquoted.noSpace) (h.unquoted.noBreak rest))
    (hhead ▸ h.unquoted.noComment)

theorem head?_append_ne (h : Lettered name) (rest : List Char) {c : Char}
    (hc : isAsciiLetter c = false) : (name ++ rest).head? ≠ some c := by
  rw [h.unquoted.head?_append]
  exact h.head?_ne hc

theorem all_isYamlChar (h : Lettered name) : name.all isYamlChar = true :=
  List.all_eq_true.2 fun c hc => forall_letter isYamlChar (by decide) (h.letters c hc)

end Lettered

theorem beginsPlain_of_letter {c : Char} (hc : isAsciiLetter c = true) (more : List Char) :
    beginsPlain false c more.head? = true :=
  beginsPlain_of_none (forall_letter (fun c => beginsPlain false c none) (by decide) hc) more

/-- The state behind a name at the front of a text: it may turn out to be a key. -/
def nameState (name rest : List Char) : Scan :=
  ⟨onLine name.length rest, 0, -1, [], false, [(0, ⟨0, false, 0, 0, 0⟩)],
    [.scalar (String.ofList name) true], 1⟩

theorem next_name (h : Lettered name) (hgap : isBlankGap rest.head? = true) (fuel : Nat) :
    (next (fuel + 1)).run (firstState (name ++ ':' :: rest)) =
      .ok (true, nameState name (':' :: rest)) := by
  have hends : endsPlain false (':' :: rest) = true := by simp [endsPlain, hgap]
  have hbreak : NoBreak (':' :: rest) := by
    intro c hc
    cases hc
    decide
  have hbehind : Behind [] (':' :: rest) := .ending hends (by simp) hbreak
  have harrives : Arrives (firstState (name ++ ':' :: rest)) (firstState (name ++ ':' :: rest)) :=
    arrives [] (h.passed _) rfl (List.forall_mem_nil _) (.inr (by simp [firstState]))
  have hkey : rememberKey.run (firstState (name ++ ':' :: rest)) = .ok ((), {
      firstState (name ++ ':' :: rest) with keys := [(0, ⟨0, false, 0, 0, 0⟩)] }) := rfl
  have hplain := run_plain hkey rfl rfl (by simp [firstState]) h.unquoted hbehind
  have hhyphen : name.head? ≠ some '-' := h.head?_ne (by decide)
  have hpoint : name.head? ≠ some '.' := h.head?_ne (by decide)
  obtain ⟨c, cs, rfl⟩ := List.exists_cons_of_ne_nil h.nonempty
  have hbegins := beginsPlain_of_letter (h.letters c List.mem_cons_self) (cs ++ ':' :: rest)
  rw [next_eq_plain harrives rfl rfl hbegins
    fun _ => ⟨by simpa using hhyphen, by simpa using hpoint⟩, run_bind_ok hplain]
  simp [nameState, firstState]
  rfl

/-! ## Values -/

/-- The tokens of a name and its colon, the latest first. -/
def keyTokens (name : List Char) : List Token :=
  [.value, .scalar (String.ofList name) true, .key, .blockMappingStart]

/-- A state behind the colon of the first entry of a text, with the tokens behind the colon, the
latest first. -/
def valueState (name : List Char) (i : Nat) (rest : List Char) (later : List Token) : Scan :=
  ⟨onLine i rest, 0, 0, [-1], false, [], later ++ keyTokens name, later.length + 4⟩

theorem arrives_value {later : List Token} (passed : List Char) (h : Passed passed rest) :
    Arrives (valueState name i (passed ++ rest) later)
      (valueState name (i + passed.length) rest later) :=
  arrives passed h rfl (List.forall_mem_nil _) (.inr (Int.natCast_nonneg _))

theorem next_nameColon (hlength : name.length ≤ 1024) (hgap : isBlankGap rest.head? = true)
    (fuel : Nat) : (next (fuel + 1)).run (nameState name (':' :: rest)) =
      .ok (true, valueState name (name.length + 1) rest []) := by
  have hpassed : Passed [] (':' :: rest) := passed_cons (List.forall_mem_nil _) (by decide)
  have harrives : Arrives (nameState name (':' :: rest)) (nameState name (':' :: rest)) :=
    arrives [] hpassed rfl (by simp [nameState, hlength]) (.inr (by simp [nameState]))
  rw [next_colon harrives rfl hgap]
  rfl

/-- A text that can stand as a plain scalar behind the colon of an entry, on the same line. -/
def isPlainLine : List Char → Bool
  | [] => false
  | c :: cs => beginsPlain false c cs.head? && goesOnAll (c :: cs) && (c :: cs).all isYamlChar

theorem unquoted_of_isPlainLine {cs : List Char} (h : isPlainLine cs = true) : Unquoted cs := by
  cases cs with
  | nil => cases h
  | cons c cs =>
    simp only [isPlainLine, Bool.and_eq_true] at h
    obtain ⟨⟨hbegins, hgoes⟩, -⟩ := h
    refine ⟨List.cons_ne_nil _ _, ?_, ?_, hgoes⟩
    · rintro ⟨⟩
      simp [beginsPlain, isBlankGap] at hbegins
    · rintro ⟨⟩
      simp [beginsPlain, isBlankGap] at hbegins

theorem next_plainValue {cs gap : List Char} (hcs : isPlainLine cs = true)
    (hbehind : Behind gap rest) (fuel : Nat) :
    (next (fuel + 1)).run (valueState name i (' ' :: (cs ++ (gap ++ rest))) []) =
      .ok (true, valueState name (i + 1 + cs.length + gap.length) rest
        [.scalar (String.ofList cs) true]) := by
  have hunquoted := unquoted_of_isPlainLine hcs
  have hhead := hunquoted.head?_append (gap ++ rest)
  have hgap : Gap [' '] (cs ++ (gap ++ rest)) :=
    ⟨by simp, hhead ▸ hunquoted.noSpace, hunquoted.noBreak _⟩
  have harrives : Arrives (valueState name i (' ' :: (cs ++ (gap ++ rest))) [])
      (valueState name (i + 1) (cs ++ (gap ++ rest)) []) :=
    arrives_value [' '] (.spaces hgap (hhead ▸ hunquoted.noComment))
  have hplain := run_plain (s := valueState name (i + 1) (cs ++ (gap ++ rest)) [])
    (run_rememberKey_of_not rfl) rfl rfl (by simp [valueState]) hunquoted hbehind
  obtain ⟨c, cs, rfl⟩ := List.exists_cons_of_ne_nil hunquoted.nonempty
  simp only [isPlainLine, Bool.and_eq_true] at hcs
  rw [next_eq_plain harrives rfl rfl (beginsPlain_append hcs.1.1 _) (by simp), run_bind_ok hplain]
  rfl

theorem next_quotedValue {text : List Char} (hsolid : ∀ c ∈ text, isSolid c = true)
    (hinline : ∀ c ∈ text, isInline c = true) (fuel : Nat) :
    (next (fuel + 1)).run (valueState name i (' ' :: '"' :: text ++ '"' :: rest) []) =
      .ok (true, valueState name (i + 1 + (text.length + 2)) rest
        [.scalar (String.ofList text) false]) :=
  next_quoted (arrives_value [' '] (passed_cons (by simp) (by decide))) rfl
    (run_rememberKey_of_not rfl) rfl hsolid hinline fuel

theorem yields_end {later : List Token} {tail : List Char} (h : Passed tail []) :
    Yields 1 (valueState name i tail later)
      (.streamEnd :: .blockEnd :: (later ++ keyTokens name)) := by
  have harrives : Arrives (valueState name i tail later)
      (valueState name (i + tail.length) [] later) := by
    have happend : Arrives (valueState name i (tail ++ []) later) _ := arrives_value tail h
    rwa [List.append_nil] at happend
  refine Yields.end ⟨onLine (i + tail.length) [], 0, -1, [], false, [], _, later.length + 6⟩
    fun width => ?_
  rw [next_end harrives rfl]
  rfl

/-! ## Items in brackets -/

/-- A state between the brackets of the value of an entry. -/
def itemState (name : List Char) (i : Nat) (rest : List Char) (allowed : Bool)
    (keys : List (Nat × KeyPlace)) (later : List Token) : Scan :=
  ⟨onLine i rest, 1, 0, [-1], allowed, keys, later ++ keyTokens name, later.length + 4⟩

theorem arrives_item {allowed : Bool} {keys : List (Nat × KeyPlace)} {later : List Token}
    (passed : List Char) (h : Passed passed rest)
    (hkeys : ∀ e ∈ keys, e.2.line = 0 ∧ i + passed.length ≤ 1024 + e.2.index) :
    Arrives (itemState name i (passed ++ rest) allowed keys later)
      (itemState name (i + passed.length) rest allowed keys later) :=
  arrives passed h rfl hkeys (.inl Nat.one_ne_zero)

theorem next_bracket (fuel : Nat) :
    (next (fuel + 1)).run (valueState name i (' ' :: '[' :: rest) []) =
      .ok (true, itemState name (i + 2) rest true [] [.flowSequenceStart]) :=
  next_opening (arrives_value [' '] (passed_cons (by simp) (by decide))) rfl rfl fuel

theorem next_item {text : List Char} {later : List Token} (gap : List Char)
    (hgap : ∀ c ∈ gap, c = ' ') (hsolid : ∀ c ∈ text, isSolid c = true)
    (hinline : ∀ c ∈ text, isInline c = true) (fuel : Nat) :
    (next (fuel + 1)).run (itemState name i (gap ++ ('"' :: text ++ '"' :: rest)) true [] later) =
      .ok (true, itemState name (i + gap.length + (text.length + 2)) rest false
        [(1, ⟨later.length + 4, false, i + gap.length, 0, i + gap.length⟩)]
        (.scalar (String.ofList text) false :: later)) := by
  have hpassed : Passed gap ('"' :: text ++ '"' :: rest) := passed_cons hgap (by decide)
  have hkey : rememberKey.run (itemState name (i + gap.length) ('"' :: text ++ '"' :: rest) true []
      later) = .ok ((), itemState name (i + gap.length) ('"' :: text ++ '"' :: rest) true
        [(1, ⟨later.length + 4, false, i + gap.length, 0, i + gap.length⟩)] later) := rfl
  exact next_quoted (arrives_item gap hpassed (List.forall_mem_nil _)) rfl hkey rfl hsolid hinline
    fuel

theorem next_itemComma {j before : Nat} {later : List Token} (hnear : i ≤ 1024 + j) (fuel : Nat) :
    (next (fuel + 1)).run
        (itemState name i (',' :: rest) false [(1, ⟨before, false, j, 0, j⟩)] later) =
      .ok (true, itemState name (i + 1) rest true [] (.flowEntry :: later)) :=
  next_comma (arrives_item [] (passed_cons (List.forall_mem_nil _) (by decide))
    (by simpa using hnear)) rfl (by simp [itemState]) fuel

theorem next_itemClose {j before : Nat} {later : List Token} (hnear : i ≤ 1024 + j) (fuel : Nat) :
    (next (fuel + 1)).run
        (itemState name i (']' :: rest) false [(1, ⟨before, false, j, 0, j⟩)] later) =
      .ok (true, valueState name (i + 1) rest (.flowSequenceEnd :: later)) :=
  next_closing (arrives_item [] (passed_cons (List.forall_mem_nil _) (by decide))
    (by simpa using hnear)) rfl Nat.one_ne_zero (by simp [itemState]) fuel

/-! ## Entries -/

/-- The tokens of a name and the value behind it, the latter told the latest first. -/
theorem tokens_entry (h : Lettered name) (hlength : name.length ≤ 1024) {k : Nat}
    {value : List Char} (later : List Token)
    (hvalue : Yields k (valueState name (name.length + 1) (' ' :: value) [])
      (.streamEnd :: .blockEnd :: (later ++ keyTokens name)))
    (hk : k ≤ value.length + 2) (hyaml : value.all isYamlChar = true) :
    tokens (name ++ ':' :: ' ' :: value) =
      .ok ((keyTokens name).reverse ++ (later.reverse ++ [.blockEnd, .streamEnd])) := by
  have hyields : Yields (k + 1 + 1) (firstState (name ++ ':' :: ' ' :: value)) _ :=
    (hvalue.step (next_nameColon hlength rfl)).step (next_name h rfl)
  have hsteps : k + 1 + 1 ≤ (name ++ ':' :: ' ' :: value).length + 2 := by
    simp only [List.length_append, List.length_cons]
    omega
  have hcolon : isYamlChar ':' = true ∧ isYamlChar ' ' = true := by decide
  have hall : (name ++ ':' :: ' ' :: value).all isYamlChar = true := by
    simp [h.all_isYamlChar, hcolon, hyaml]
  rw [tokens_of_yields hyields hsteps hall (h.head?_append_ne _ (by decide))]
  simp

theorem tokens_plainEntry (h : Lettered name) (hlength : name.length ≤ 1024) {cs gap : List Char}
    (hcs : isPlainLine cs = true) (hbehind : Behind gap rest) (hpassed : Passed rest [])
    (hyaml : (gap ++ rest).all isYamlChar = true) :
    tokens (name ++ ':' :: ' ' :: (cs ++ (gap ++ rest))) = .ok [.blockMappingStart, .key,
      .scalar (String.ofList name) true, .value, .scalar (String.ofList cs) true, .blockEnd,
      .streamEnd] := by
  have hall : (cs ++ (gap ++ rest)).all isYamlChar = true := by
    cases cs with
    | nil => cases hcs
    | cons c cs => rw [List.all_append, hyaml, (Bool.and_eq_true_iff.1 hcs).2, Bool.and_self]
  exact tokens_entry h hlength _ ((yields_end hpassed).step (next_plainValue hcs hbehind))
    (by omega) hall

/-- A text between double quotes, with more behind it. -/
def quoted (text rest : List Char) : List Char := '"' :: text ++ '"' :: rest

theorem quoted_append (text rest more : List Char) :
    quoted text rest ++ more = quoted text (rest ++ more) := by simp [quoted]

/-- Characters that stand for themselves between double quotes. -/
structure Quotable (text : List Char) : Prop where
  solid : ∀ c ∈ text, isSolid c = true
  inline : ∀ c ∈ text, isInline c = true
  yaml : ∀ c ∈ text, isYamlChar c = true

theorem Quotable.all_quoted {text : List Char} (h : Quotable text)
    (hrest : rest.all isYamlChar = true) : (quoted text rest).all isYamlChar = true := by
  have hquote : isYamlChar '"' = true := by decide
  have htext : text.all isYamlChar = true := List.all_eq_true.2 h.yaml
  simp [quoted, hquote, hrest, htext]

theorem tokens_quotedEntry (h : Lettered name) (hlength : name.length ≤ 1024) {text : List Char}
    (htext : Quotable text) (hpassed : Passed rest []) (hyaml : rest.all isYamlChar = true) :
    tokens (name ++ ':' :: ' ' :: quoted text rest) = .ok [.blockMappingStart, .key,
      .scalar (String.ofList name) true, .value, .scalar (String.ofList text) false, .blockEnd,
      .streamEnd] :=
  tokens_entry h hlength _
    ((yields_end hpassed).step (next_quotedValue htext.solid htext.inline))
    (by omega) (htext.all_quoted hyaml)

theorem tokens_itemsEntry (h : Lettered name) (hlength : name.length ≤ 1024)
    {first second : List Char} (hfirst : Quotable first) (hsecond : Quotable second)
    (hshort : first.length ≤ 1000 ∧ second.length ≤ 1000) (hpassed : Passed rest [])
    (hyaml : rest.all isYamlChar = true) :
    tokens (name ++ ':' :: ' ' :: '[' :: quoted first (',' :: ' ' :: quoted second (']' :: rest))) =
      .ok [.blockMappingStart, .key, .scalar (String.ofList name) true, .value, .flowSequenceStart,
        .scalar (String.ofList first) false, .flowEntry, .scalar (String.ofList second) false,
        .flowSequenceEnd, .blockEnd, .streamEnd] := by
  have hmark : isYamlChar '[' = true ∧ isYamlChar ',' = true ∧ isYamlChar ' ' = true ∧
      isYamlChar ']' = true := by decide
  have hclose : (']' :: rest).all isYamlChar = true := by simp [hmark, hyaml]
  have hcomma : (',' :: ' ' :: quoted second (']' :: rest)).all isYamlChar = true := by
    simp [hmark, hsecond.all_quoted hclose]
  have hall : ('[' :: quoted first (',' :: ' ' :: quoted second (']' :: rest))).all isYamlChar =
      true := by
    simp [hmark, hfirst.all_quoted hcomma]
  have hsteps : 6 ≤
      ('[' :: quoted first (',' :: ' ' :: quoted second (']' :: rest))).length + 2 := by
    simp only [quoted, List.length_append, List.length_cons]
    omega
  refine tokens_entry h hlength [.flowSequenceEnd, .scalar (String.ofList second) false, .flowEntry,
    .scalar (String.ofList first) false, .flowSequenceStart] ?_ hsteps hall
  -- one step each for the bracket, the items, the comma and the closing bracket
  refine Yields.step ?_ next_bracket
  refine Yields.step ?_ (next_item [] (List.forall_mem_nil _) hfirst.solid hfirst.inline)
  refine Yields.step ?_ (next_itemComma (by simp; omega))
  refine Yields.step ?_ (next_item [' '] (by simp) hsecond.solid hsecond.inline)
  refine Yields.step ?_ (next_itemClose (by omega))
  exact yields_end hpassed

theorem ofTokens?_scalarEntry (name text : String) (plain : Bool) :
    Node.ofTokens? [.blockMappingStart, .key, .scalar name true, .value, .scalar text plain,
      .blockEnd, .streamEnd] =
    .ok (some (.mapping .map [(.scalar (plainTag name.toList) name,
      .scalar (Parse.scalarTag none plain text) text)])) := rfl

theorem ofTokens?_itemsEntry (name first second : String) :
    Node.ofTokens? [.blockMappingStart, .key, .scalar name true, .value, .flowSequenceStart,
      .scalar first false, .flowEntry, .scalar second false, .flowSequenceEnd, .blockEnd,
      .streamEnd] =
    .ok (some (.mapping .map [(.scalar (plainTag name.toList) name,
      .sequence .seq [.scalar .str first, .scalar .str second])])) := rfl

end Outline.Yaml

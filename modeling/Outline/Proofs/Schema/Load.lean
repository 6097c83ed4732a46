import Outline.Files.Tree
import Outline.Proofs.Except
import Outline.Proofs.Schema.Convert
import Outline.Proofs.Schema.Shown
import Outline.Proofs.Yaml.Build
import Outline.Schema.Find

/-!
# Schemas from files

**A schema file gives a schema or a schema failure that names it** (`read_readSchema`), with these
exceptions (`Escapes`): bytes that write no text, a scalar that writes no value of its kind, and a
whole number with too many digits, in an expression or in a value that a flaw shows.

* `Refuses`: why a text gives a schema failure;
* `schemaFrom`: what comes of the bytes of a schema file;
* `Loaded`: what can come of them.
-/

namespace Outline

/-- **Why a text gives a schema failure**: it is no YAML, its value has flaws, or an expression in
it does not compile. -/
inductive Refuses (text : String) : LoadError → Prop
  | notYaml (h : Yaml.load text = .error .notYaml) : Refuses text .notYaml
  | flawed {v : Value} {flaws : List Flaw} (hload : Yaml.load text = .ok v)
      (h : schemaFlaws v = .ok flaws) (hne : flaws ≠ []) : Refuses text (.flawed flaws)
  | expression {v : Value} {source : String} {e : ExprError} (hload : Yaml.load text = .ok v)
      (hexpr : SchemaExpression v source) (h : Expression.compile source = .error e)
      (hdigits : ∀ n, e ≠ .token (.tooManyDigits n)) :
      Refuses text (.expression (strip source) e)

/-- **What stops the loading of a schema without a schema failure.** -/
inductive Escapes (bytes : List Nat) : Fault → Prop
  | notText {e : Utf8.Error} (h : textOfBytes bytes = .error e) : Escapes bytes (.notText e)
  | scalar {text : String} {fault : Fault} (htext : textOfBytes bytes = .ok text)
      (hload : Yaml.load text = .error fault) (h : Yaml.Ill text fault) (hfault : fault ≠ .notYaml) :
      Escapes bytes fault
  | flaw {text : String} {v : Value} (htext : textOfBytes bytes = .ok text)
      (hload : Yaml.load text = .ok v) (hflaws : schemaFlaws v = .error (.tooManyDigits none))
      (hv : v.writable = false) : Escapes bytes (.tooManyDigits none)
  | expression {text source : String} {v : Value} {n : Nat} (htext : textOfBytes bytes = .ok text)
      (hload : Yaml.load text = .ok v) (hexpr : SchemaExpression v source)
      (h : Expression.compile source = .error (.token (.tooManyDigits n))) :
      Escapes bytes (.tooManyDigits (some n))

/-- **What can come of a schema file**, given the answer to the question for its bytes. -/
inductive Loaded (source : String) :
    Except FileError (List Nat) → Except Fault (Except SchemaFailure Schema) → Prop
  | schema {bytes : List Nat} {schema : Schema} (h : schema.source = source) :
      Loaded source (.ok bytes) (.ok (.ok schema))
  | unreadable (e : FileError) :
      Loaded source (.error e) (.ok (.error ⟨source, .unreadable e.words⟩))
  | refused {bytes : List Nat} {text : String} {cause : LoadError}
      (htext : textOfBytes bytes = .ok text) (h : Refuses text cause) :
      Loaded source (.ok bytes) (.ok (.error ⟨source, cause⟩))
  | escaped {bytes : List Nat} {fault : Fault} (h : Escapes bytes fault) :
      Loaded source (.ok bytes) (.error fault)

/-! ## Texts -/

variable {text source : String} {v : Value}

/-- A schema carries the name of its source. -/
theorem source_of_ofValue {schema : Schema} (h : Schema.ofValue v source = .ok schema) :
    schema.source = source := by
  obtain ⟨_, -, h⟩ := bind_eq_ok.1 h
  obtain ⟨_, -, h⟩ := bind_eq_ok.1 h
  obtain ⟨_, -, h⟩ := bind_eq_ok.1 h
  obtain ⟨_, -, h⟩ := bind_eq_ok.1 h
  obtain ⟨_, -, h⟩ := bind_eq_ok.1 h
  cases h
  rfl

theorem ofExpression_eq_error {e : LoadError} (h : HeadingSpec.ofExpression text = .error e) :
    (∃ n, Expression.compile text = .error (.token (.tooManyDigits n)) ∧
      e = .fault (.tooManyDigits (some n))) ∨
      ∃ err, Expression.compile text = .error err ∧ (∀ n, err ≠ .token (.tooManyDigits n)) ∧
        e = .expression (strip text) err := by
  unfold HeadingSpec.ofExpression at h
  split at h
  · cases h
  · rename_i n hcompile
    cases h
    exact .inl ⟨n, hcompile, rfl⟩
  · rename_i err hdigits hcompile
    cases h
    exact .inr ⟨err, hcompile, hdigits, rfl⟩

theorem loadSchema_of_ne_null (hv : v ≠ .null) : loadSchema v source =
    match schemaFlaws v with
    | .error f => .error (.fault f)
    | .ok [] => Schema.ofValue v source
    | .ok flaws => .error (.flawed flaws) := by
  simp only [loadSchema]
  all_goals rfl

theorem source_of_loadSchema {schema : Schema} (h : loadSchema v source = .ok schema) :
    schema.source = source := by
  by_cases hv : v = .null
  · subst hv
    cases h
    rfl
  · rw [loadSchema_of_ne_null hv] at h
    split at h
    · cases h
    · exact source_of_ofValue h
    · cases h

/-- **A value gives no schema only for its flaws**, for an expression in it that does not compile, or
because it cannot be written. -/
theorem loadSchema_eq_error {e : LoadError} (h : loadSchema v source = .error e) :
    (∃ flaws, schemaFlaws v = .ok flaws ∧ flaws ≠ [] ∧ e = .flawed flaws) ∨
      (∃ text, SchemaExpression v text ∧ HeadingSpec.ofExpression text = .error e) ∨
      (schemaFlaws v = .error (.tooManyDigits none) ∧ v.writable = false ∧
        e = .fault (.tooManyDigits none)) := by
  have hv : v ≠ .null := by
    rintro rfl
    cases h
  rw [loadSchema_of_ne_null hv] at h
  split at h
  · rename_i fault hflaws
    cases h
    obtain ⟨rfl, hunwritable⟩ := unwritable_of_flaws v schemaForm fault hflaws
    exact .inr (.inr ⟨hflaws, hunwritable, rfl⟩)
  · rename_i hflaws
    exact .inr (.inl (failsFor_schema (fits_of_flaws v schemaForm hflaws) source e h))
  · rename_i flaws hne hflaws
    cases h
    exact .inl ⟨flaws, hflaws, hne, rfl⟩

/-- What ends the loading of a text. -/
theorem loadSchemaText_eq_error {e : LoadError} (h : loadSchemaText text source = .error e) :
    Refuses text e ∨ ∃ fault, e = .fault fault ∧
      ∀ bytes, textOfBytes bytes = .ok text → Escapes bytes fault := by
  unfold loadSchemaText at h
  split at h
  · rename_i v hload
    rcases loadSchema_eq_error h with
      ⟨flaws, hflaws, hne, rfl⟩ | ⟨expr, hexpr, he⟩ | ⟨hflaws, hv, rfl⟩
    · exact .inl (.flawed hload hflaws hne)
    · rcases ofExpression_eq_error he with ⟨n, hcompile, rfl⟩ | ⟨err, hcompile, hdigits, rfl⟩
      · exact .inr ⟨_, rfl, fun _ htext => .expression htext hload hexpr hcompile⟩
      · exact .inl (.expression hload hexpr hcompile hdigits)
    · exact .inr ⟨_, rfl, fun _ htext => .flaw htext hload hflaws hv⟩
  · rename_i hload
    cases h
    exact .inl (.notYaml hload)
  · rename_i fault hfault hload
    cases h
    exact .inr ⟨_, rfl, fun _ htext => .scalar htext hload (Yaml.ill_of_load hload) hfault⟩

theorem source_of_loadSchemaText {schema : Schema}
    (h : loadSchemaText text source = .ok schema) : schema.source = source := by
  unfold loadSchemaText at h
  split at h
  · exact source_of_loadSchema h
  · cases h
  · cases h

/-! ## Files -/

/-- What comes of a text. -/
def schemaOfText (source text : String) : Except Fault (Except SchemaFailure Schema) :=
  match loadSchemaText text source with
  | .error (.fault f) => .error f
  | .error e => .ok (.error ⟨source, e⟩)
  | .ok schema => .ok (.ok schema)

/-- What comes of the answer to the question for the bytes of a schema file. -/
def schemaFrom (source : String) :
    Except FileError (List Nat) → Except Fault (Except SchemaFailure Schema)
  | .error e => .ok (.error ⟨source, .unreadable e.words⟩)
  | .ok bytes =>
    match textOfBytes bytes with
    | .error e => .error (.notText e)
    | .ok text => schemaOfText source text

theorem loaded_schemaFrom (answer : Except FileError (List Nat)) :
    Loaded source answer (schemaFrom source answer) := by
  cases answer with
  | error e => exact .unreadable e
  | ok bytes =>
    unfold schemaFrom
    dsimp only
    split
    · rename_i e htext
      exact .escaped (.notText htext)
    · rename_i text htext
      unfold schemaOfText
      split
      · rename_i fault hload
        rcases loadSchemaText_eq_error hload with h | ⟨fault', heq, h⟩
        · cases h
        · cases heq
          exact .escaped (h bytes htext)
      · rename_i e hfault hload
        rcases loadSchemaText_eq_error hload with h | ⟨fault, rfl, -⟩
        · exact .refused htext h
        · exact absurd rfl (hfault fault)
      · rename_i schema hload
        exact .schema (source_of_loadSchemaText hload)

section

variable {m : Type → Type} [Monad m] [LawfulMonad m]

theorem journal_ofFiles_bind {α β : Type} (answer : m α) (f : α → Session m β) :
    (Session.ofFiles answer >>= f).journal = answer >>= fun a => (f a).journal := by
  simp [Session.journal, Session.ofFiles]

omit [LawfulMonad m] in
theorem journal_throw {α : Type} (fault : Fault) :
    (throw fault : Session m α).journal = pure (.error fault, {}) := rfl

omit [LawfulMonad m] in
theorem journal_pure {α : Type} (a : α) : (pure a : Session m α).journal = pure (.ok a, {}) := rfl

theorem journal_debug_bind {α : Type} (part words : String) (a : α) :
    (Session.debug part words >>= fun _ => pure a : Session m α).journal =
      pure (.ok a, { notices := [⟨false, part, words⟩] }) := pure_bind _ _

/-- Reading a schema is asking for the bytes of its file. -/
theorem journal_readSchema (files : FileReader m) (path : String) :
    Prod.fst <$> (readSchema files path).journal =
      schemaFrom (PlainPath.read path).text <$> files.bytes (PlainPath.read path).text := by
  unfold readSchema readFileText
  dsimp only
  rw [journal_ofFiles_bind, bind_assoc, map_bind, map_eq_pure_bind]
  refine bind_congr fun answer => ?_
  unfold schemaFrom schemaOfText
  cases answer with
  | error e => simp [journal_pure]
  | ok bytes =>
    dsimp only
    cases textOfBytes bytes with
    | error e => simp [journal_throw]
    | ok text =>
      simp only [pure_bind]
      cases loadSchemaText text (PlainPath.read path).text with
      | ok schema => simp only [journal_debug_bind, map_pure]
      | error e =>
        cases e with
        | fault fault => simp [journal_throw]
        | _ => simp [journal_pure]

/-- **A schema file gives a schema or a schema failure that names it**, unless its bytes are one of
the exceptions. -/
theorem read_readSchema (files : FileReader m) (path : String) :
    Prod.fst <$> (readSchema files path).journal =
        schemaFrom (PlainPath.read path).text <$> files.bytes (PlainPath.read path).text ∧
      ∀ answer, Loaded (PlainPath.read path).text answer
        (schemaFrom (PlainPath.read path).text answer) :=
  ⟨journal_readSchema files path, loaded_schemaFrom⟩

end

/-- A directory with a schema file. -/
def schemaDisk (text : String) : Disk :=
  ⟨.directory [(".mdschema.yml", .file (text.toList.flatMap Utf8.encode))], []⟩

/-- The message of a schema failure. -/
def failureMessage? : Except Fault (Except SchemaFailure Schema) → Option String
  | .ok (.error f) => some f.message
  | _ => none

/-- A structure that is no list is a schema failure. -/
theorem readSchema_flawed :
    failureMessage? (readSchema (schemaDisk "structure: 5\n").reader ".mdschema.yml").journal.1 =
      some ".mdschema.yml: invalid schema\n  - structure: 5 is not of type 'array'" := by
  have h := (read_readSchema (schemaDisk "structure: 5\n").reader ".mdschema.yml").1
  have hfrom : failureMessage? (schemaFrom ".mdschema.yml"
      ((schemaDisk "structure: 5\n").reader.bytes ".mdschema.yml")) =
      some ".mdschema.yml: invalid schema\n  - structure: 5 is not of type 'array'" := by
    decide +kernel
  exact (congrArg failureMessage? h).trans hfrom

/-- **A date that does not exist is no schema failure.** -/
theorem readSchema_impossibleDate :
    (readSchema (schemaDisk "structure: 2024-13-45\n").reader ".mdschema.yml").journal.1 =
      .error (.calendar .month) :=
  failure?_eq_some_iff.1 (by decide +kernel)

end Outline

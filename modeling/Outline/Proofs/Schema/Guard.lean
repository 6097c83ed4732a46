import Outline.Proofs.Expr.Compile
import Outline.Proofs.Schema.Longhand

/-!
# The check guards the reading

A value is checked against the form of schemas before anything is read off it. **What has no flaws is
read**, but for expressions that do not compile, and the elements that are read have the shape of the
lists in the value (`guarded_loadSchema`).

* `ShapedAs`: an element has the shape of an item of a list of elements;
* `LoadError.IsRefusal`: the value is refused, by its flaws or by an expression in it;
* `Guarded`: what the check against the form guards.
-/

namespace Outline

/-! ## Shapes -/

/-- The items of the list at a key of a mapping. -/
def Value.itemsAt (name : String) (v : Value) : List Value :=
  match v.get? name with
  | some w => w.items
  | none => []

/-- **An element of the shape of an item**: a text stands for an element without others below it, and
below a mapping stand the elements of its children. -/
inductive ShapedAs : Value → Element → Prop
  | text {s : String} {e : Element} (hheading : e.heading = .literal (strip s))
      (hchildren : e.children = []) : ShapedAs (.str s) e
  | mapping {entries : List (Value × Value)} {heading : Value} {e : Element}
      (hheading : (Value.map entries).get? "heading" = some heading)
      (hspec : HeadingSpec.ofValue heading = .ok e.heading)
      (hchildren : List.Forall₂ ShapedAs ((Value.map entries).itemsAt "children") e.children) :
      ShapedAs (.map entries) e

variable {v : Value} {source text : String}

/-- What the parts of an element that is read are read off. -/
theorem ofValue_map_eq_ok {entries : List (Value × Value)} {e : Element}
    (h : Element.ofValue (.map entries) = .ok e) :
    (∃ heading, (Value.map entries).get? "heading" = some heading ∧
      HeadingSpec.ofValue heading = .ok e.heading) ∧
      readMember (.map entries) "children" elementsOfValue [] = .ok e.children := by
  unfold Element.ofValue at h
  rw [childrenOfEntries_eq] at h
  dsimp only at h
  split at h
  · rename_i heading hheading
    obtain ⟨spec, hspec, h⟩ := bind_eq_ok.1 h
    obtain ⟨_, -, h⟩ := bind_eq_ok.1 h
    obtain ⟨_, -, h⟩ := bind_eq_ok.1 h
    obtain ⟨_, -, h⟩ := bind_eq_ok.1 h
    obtain ⟨_, -, h⟩ := bind_eq_ok.1 h
    obtain ⟨children, hchildren, h⟩ := bind_eq_ok.1 h
    obtain ⟨_, -, h⟩ := bind_eq_ok.1 h
    obtain ⟨_, -, h⟩ := bind_eq_ok.1 h
    cases h
    exact ⟨⟨heading, hheading, hspec⟩, hchildren⟩
  · cases h

theorem elementsOfValue_eq_ok {es : List Element} (h : elementsOfValue v = .ok es) :
    ∃ items, v = .list items ∧ List.Forall₂ (fun w e => Element.ofValue w = .ok e) items es := by
  cases v with
  | list items =>
    refine ⟨items, rfl, ?_⟩
    rw [elementsOfValue] at h
    induction items generalizing es with
    | nil =>
      cases h
      exact .nil
    | cons w ws ih =>
      obtain ⟨e, he, h⟩ := bind_eq_ok.1 h
      obtain ⟨es', hes, h⟩ := bind_eq_ok.1 h
      cases h
      exact .cons he (ih hes)
  | _ => cases h

/-- Where a list of elements is read off a member, a relation of lists to the items in them is one of
the items at the member. -/
theorem items_of_readMember {R : Value → Element → Prop} {name : String} {es : List Element}
    (hR : ∀ w, v.get? name = some w → ∀ es, elementsOfValue w = .ok es → List.Forall₂ R w.items es)
    (h : readMember v name elementsOfValue [] = .ok es) : List.Forall₂ R (v.itemsAt name) es := by
  unfold readMember at h
  unfold Value.itemsAt
  cases hw : v.get? name with
  | some w =>
    rw [hw] at h
    exact hR w hw es h
  | none =>
    rw [hw] at h
    cases h
    exact .nil

/-- **What is read has the shape of the value**, an element or a list of elements. -/
theorem shapedAs_of_ofValue (v : Value) : (∀ e, Element.ofValue v = .ok e → ShapedAs v e) ∧
    ∀ es, elementsOfValue v = .ok es → List.Forall₂ ShapedAs v.items es := by
  induction v using Value.parts_induction with
  | step v ih =>
    constructor
    · intro e h
      cases v with
      | str s =>
        cases h
        exact .text rfl rfl
      | map entries =>
        obtain ⟨⟨heading, hheading, hspec⟩, hchildren⟩ := ofValue_map_eq_ok h
        exact .mapping hheading hspec
          (items_of_readMember (fun w hw => (ih w (mem_parts_of_get? hw)).2) hchildren)
      | _ => cases h
    · intro es h
      obtain ⟨items, rfl, hitems⟩ := elementsOfValue_eq_ok h
      refine List.forall₂_iff_get.2 ⟨hitems.length_eq, fun i hi hi' => ?_⟩
      exact (ih _ (List.mem_append_left _ (List.get_mem _ _))).1 _ (hitems.get hi hi')

/-! ## Expressions -/

/-- The expressions in what is read have been compiled. -/
theorem HasExpression.compiled (h : HasExpression v text) :
    (∀ e, Element.ofValue v = .ok e → ∃ spec, HeadingSpec.ofExpression text = .ok spec) ∧
      ∀ es, elementsOfValue v = .ok es → ∃ spec, HeadingSpec.ofExpression text = .ok spec := by
  -- both at once, since the children of an element are a list and the items of a list are elements
  induction h with
  | @heading entries heading text hheading hexpr =>
    refine ⟨fun e he => ?_, fun es hes => by cases hes⟩
    obtain ⟨⟨heading', hheading', hspec⟩, -⟩ := ofValue_map_eq_ok he
    cases hheading.symm.trans hheading'
    unfold HeadingSpec.ofValue at hspec
    split at hspec
    · cases hexpr
    · rw [hexpr] at hspec
      obtain ⟨source, hsource, hspec⟩ := bind_eq_ok.1 hspec
      cases hsource
      exact ⟨_, hspec⟩
  | @children entries children text hchildren h ih =>
    refine ⟨fun e he => ?_, fun es hes => by cases hes⟩
    obtain ⟨-, hread⟩ := ofValue_map_eq_ok he
    rw [readMember, hchildren] at hread
    exact ih.2 _ hread
  | @item items w text hw h ih =>
    refine ⟨fun e he => (by cases he), fun es hes => ?_⟩
    obtain ⟨items', heq, hitems⟩ := elementsOfValue_eq_ok hes
    cases heq
    obtain ⟨i, hi, rfl⟩ := List.getElem_of_mem hw
    have hlength := hitems.length_eq
    exact ih.1 _ (hitems.get hi (hlength ▸ hi))

/-- A text whose numbers are not too long is compiled or refused for its syntax. -/
theorem compile_outcome (h : ShortNumerals (strip text).toList) :
    (∃ x, Expression.compile text = .ok x) ∨
      ∃ err, Expression.compile text = .error err ∧ err.IsSyntax := by
  simp only [Expression.compile]
  rcases read_outcome h with ⟨e, he, -⟩ | ⟨err, herr, hkind⟩
  · rw [he]
    exact .inl ⟨_, rfl⟩
  · rw [herr]
    exact .inr ⟨err, rfl, hkind⟩

theorem ofExpression_of_compile {err : ExprError} (h : Expression.compile text = .error err) :
    ∃ e, HeadingSpec.ofExpression text = .error e := by
  unfold HeadingSpec.ofExpression
  rw [h]
  split
  · rename_i heq
    cases heq
  · exact ⟨_, rfl⟩
  · exact ⟨_, rfl⟩

/-! ## Schemas -/

/-- A value is refused: its flaws are told, or an expression in it that does not compile. -/
def LoadError.IsRefusal : LoadError → Prop
  | .flawed _ => True
  | .expression _ _ => True
  | _ => False

theorem isRefusal_of_ofExpression {e : LoadError} (hshort : ShortNumerals (strip text).toList)
    (h : HeadingSpec.ofExpression text = .error e) :
    e.IsRefusal ∧ ∃ err, Expression.compile text = .error err := by
  rcases ofExpression_eq_error h with ⟨n, hcompile, -⟩ | ⟨err, hcompile, -, rfl⟩
  · rcases compile_outcome hshort with ⟨x, hx⟩ | ⟨err, herr, hkind⟩
    · cases hx.symm.trans hcompile
    · cases herr.symm.trans hcompile
      exact absurd rfl (hkind n)
  · exact ⟨trivial, err, hcompile⟩

theorem elements_of_schema_ofValue {schema : Schema} (h : Schema.ofValue v source = .ok schema) :
    readMember v "structure" elementsOfValue [] = .ok schema.elements := by
  obtain ⟨_, -, h⟩ := bind_eq_ok.1 h
  obtain ⟨elements, helements, h⟩ := bind_eq_ok.1 h
  obtain ⟨_, -, h⟩ := bind_eq_ok.1 h
  obtain ⟨_, -, h⟩ := bind_eq_ok.1 h
  obtain ⟨_, -, h⟩ := bind_eq_ok.1 h
  cases h
  exact helements

/-- **What the check against the form guards.** Where it comes to an end, the value is refused exactly
if flaws are told or an expression in it does not compile, and otherwise it is read. The check comes to
no end only for a value that cannot be written. A schema that is read has the shape of the value, and
it is read off the value with all its elements spelled out as well. -/
structure Guarded (v : Value) (source : String) : Prop where
  refuses : ∀ flaws, schemaFlaws v = .ok flaws →
    ((∃ e, loadSchema v source = .error e ∧ e.IsRefusal) ↔
      flaws ≠ [] ∨ ∃ text, SchemaExpression v text ∧ ∃ err, Expression.compile text = .error err)
  tells : ∀ flaws, loadSchema v source = .error (.flawed flaws) ↔
    schemaFlaws v = .ok flaws ∧ flaws ≠ []
  reads : schemaFlaws v = .ok [] →
    (∀ text, SchemaExpression v text → ∃ x, Expression.compile text = .ok x) →
      ∃ schema, loadSchema v source = .ok schema
  stops : ∀ fault, loadSchema v source = .error (.fault fault) ↔ schemaFlaws v = .error fault
  unwritable : ∀ fault, schemaFlaws v = .error fault →
    fault = .tooManyDigits none ∧ v.writable = false
  never : ∀ e, loadSchema v source = .error e → e.IsRefusal ∨ ∃ fault, e = .fault fault
  shape : ∀ schema, loadSchema v source = .ok schema →
    schema.source = source ∧ List.Forall₂ ShapedAs (v.itemsAt "structure") schema.elements ∧
      loadSchema v.longhandSchema source = .ok schema

section

variable (hv : v ≠ .null)

include hv

/-- A schema that loads is read off a value without flaws. -/
theorem loadSchema_eq_ok {schema : Schema} (h : loadSchema v source = .ok schema) :
    schemaFlaws v = .ok [] ∧ Schema.ofValue v source = .ok schema := by
  rw [loadSchema_of_ne_null hv] at h
  split at h
  · cases h
  · rename_i hnone
    exact ⟨hnone, h⟩
  · cases h

/-- The expressions in a schema that loads have been compiled. -/
theorem compiled_of_loadSchema {schema : Schema} (h : loadSchema v source = .ok schema)
    (htext : SchemaExpression v text) : ∃ spec, HeadingSpec.ofExpression text = .ok spec := by
  obtain ⟨w, hw, hexpr⟩ := htext
  have helements := elements_of_schema_ofValue (loadSchema_eq_ok hv h).2
  rw [readMember, hw] at helements
  exact hexpr.compiled.2 _ helements

/-- **The flaws of a value are told**, and nothing else is. -/
theorem loadSchema_eq_flawed_iff {flaws : List Flaw} :
    loadSchema v source = .error (.flawed flaws) ↔ schemaFlaws v = .ok flaws ∧ flaws ≠ [] := by
  constructor
  · intro h
    rcases loadSchema_eq_error h with ⟨flaws', hflaws, hne, heq⟩ | ⟨text, htext, h⟩ | ⟨_, _, heq⟩
    · cases heq
      exact ⟨hflaws, hne⟩
    · rcases ofExpression_eq_error h with ⟨_, _, heq⟩ | ⟨_, _, _, heq⟩ <;> cases heq
    · cases heq
  · rintro ⟨hflaws, hne⟩
    rw [loadSchema_of_ne_null hv, hflaws]
    cases flaws with
    | nil => exact absurd rfl hne
    | cons flaw flaws => rfl

variable (hshort : ∀ text, SchemaExpression v text → ShortNumerals (strip text).toList)

include hshort

/-- The loading comes to no end exactly if the check against the form does not. -/
theorem loadSchema_eq_fault_iff {fault : Fault} :
    loadSchema v source = .error (.fault fault) ↔ schemaFlaws v = .error fault := by
  constructor
  · intro h
    rcases loadSchema_eq_error h with ⟨_, _, _, heq⟩ | ⟨text, htext, h⟩ | ⟨hflaws, _, heq⟩
    · cases heq
    · exact absurd (isRefusal_of_ofExpression (hshort text htext) h).1 id
    · cases heq
      exact hflaws
  · intro h
    rw [loadSchema_of_ne_null hv, h]

omit hv in
/-- What fails is refused or comes to no end. -/
theorem refusal_or_fault {e : LoadError} (h : loadSchema v source = .error e) :
    e.IsRefusal ∨ ∃ fault, e = .fault fault := by
  rcases loadSchema_eq_error h with ⟨_, _, _, rfl⟩ | ⟨text, htext, h⟩ | ⟨_, _, rfl⟩
  · exact .inl trivial
  · exact .inl (isRefusal_of_ofExpression (hshort text htext) h).1
  · exact .inr ⟨_, rfl⟩

/-- **A value is refused exactly if it has flaws or an expression in it does not compile.** -/
theorem refused_iff {flaws : List Flaw} (hflaws : schemaFlaws v = .ok flaws) :
    (∃ e, loadSchema v source = .error e ∧ e.IsRefusal) ↔ flaws ≠ [] ∨
      ∃ text, SchemaExpression v text ∧ ∃ err, Expression.compile text = .error err := by
  constructor
  · rintro ⟨e, h, hrefusal⟩
    rcases loadSchema_eq_error h with ⟨flaws', hflaws', hne, -⟩ | ⟨text, htext, h⟩ | ⟨_, _, rfl⟩
    · exact .inl (Except.ok.inj (hflaws'.symm.trans hflaws) ▸ hne)
    · exact .inr ⟨text, htext, (isRefusal_of_ofExpression (hshort text htext) h).2⟩
    · exact absurd hrefusal id
  · intro hcause
    cases h : loadSchema v source with
    | error e =>
      refine ⟨e, rfl, (refusal_or_fault hshort h).resolve_right ?_⟩
      rintro ⟨fault, rfl⟩
      cases hflaws.symm.trans ((loadSchema_eq_fault_iff hv hshort).1 h)
    | ok schema =>
      exfalso
      rcases hcause with hne | ⟨text, htext, err, herr⟩
      · cases h.symm.trans ((loadSchema_eq_flawed_iff hv).2 ⟨hflaws, hne⟩)
      · obtain ⟨spec, hspec⟩ := compiled_of_loadSchema hv h htext
        obtain ⟨e, he⟩ := ofExpression_of_compile herr
        cases hspec.symm.trans he

/-- A value without flaws whose expressions compile is read. -/
theorem exists_loadSchema_eq_ok (hnone : schemaFlaws v = .ok [])
    (hcompile : ∀ text, SchemaExpression v text → ∃ x, Expression.compile text = .ok x) :
    ∃ schema, loadSchema v source = .ok schema := by
  cases h : loadSchema v source with
  | ok schema => exact ⟨schema, rfl⟩
  | error e =>
    exfalso
    rcases refusal_or_fault hshort h with hrefusal | ⟨fault, rfl⟩
    · rcases (refused_iff hv hshort hnone).1 ⟨e, h, hrefusal⟩ with hne | ⟨text, htext, err, herr⟩
      · exact hne rfl
      · obtain ⟨x, hx⟩ := hcompile text htext
        cases herr.symm.trans hx
    · cases hnone.symm.trans ((loadSchema_eq_fault_iff hv hshort).1 h)

omit hshort

/-- **The check against the form guards the reading.** -/
theorem guarded_loadSchema (source : String)
    (hshort : ∀ text, SchemaExpression v text → ShortNumerals (strip text).toList) :
    Guarded v source where
  refuses _ := refused_iff hv hshort
  tells _ := loadSchema_eq_flawed_iff hv
  reads := exists_loadSchema_eq_ok hv hshort
  stops _ := loadSchema_eq_fault_iff hv hshort
  unwritable := unwritable_of_flaws v schemaForm
  never _ := refusal_or_fault hshort
  shape schema h := by
    have helements := elements_of_schema_ofValue (loadSchema_eq_ok hv h).2
    have hshape (w : Value) (_ : v.get? "structure" = some w) := (shapedAs_of_ofValue w).2
    exact ⟨source_of_loadSchema h, items_of_readMember hshape helements, loadSchema_longhand h⟩

end

/-! ## A value that is read and one that stops the check -/

/-- A schema of a text and of a mapping with an expression and a text below it. -/
def mixedSchema : Value :=
  .map [(.str "structure", .list [.str "# A",
    .map [(.str "heading", .map [(.str "expr", .str "level == 1")]),
      (.str "children", .list [.str "## B"])]])]

/-- The only expression in it. -/
theorem expression_mixedSchema (h : SchemaExpression mixedSchema text) : text = "level == 1" := by
  obtain ⟨elements, hget, h⟩ := h
  cases hget
  cases h with
  | item hw h =>
    simp only [List.mem_cons, List.not_mem_nil, or_false] at hw
    rcases hw with rfl | rfl
    · cases h
    · cases h with
      | heading hheading hexpr =>
        cases hheading
        cases hexpr
        rfl
      | children hchildren h =>
        cases hchildren
        cases h with
        | item hw h =>
          obtain rfl := List.mem_singleton.1 hw
          cases h

/-- It is read, and so is what it is spelled out to. -/
theorem guarded_mixedSchema : mixedSchema ≠ .null ∧
    (∀ text, SchemaExpression mixedSchema text → ShortNumerals (strip text).toList) ∧
    Guarded mixedSchema "" ∧ ∃ schema, loadSchema mixedSchema "" = .ok schema ∧
      List.Forall₂ ShapedAs (mixedSchema.itemsAt "structure") schema.elements ∧
      loadSchema mixedSchema.longhandSchema "" = .ok schema := by
  have hne : mixedSchema ≠ .null := by rintro ⟨⟩
  have hshort : ∀ text, SchemaExpression mixedSchema text → ShortNumerals (strip text).toList := by
    intro text h
    rw [expression_mixedSchema h]
    exact shortNumerals_of_length (by cbv)
  have hguarded := guarded_loadSchema hne "" hshort
  obtain ⟨schema, hschema⟩ := hguarded.reads (by cbv) fun text h => by
    rw [expression_mixedSchema h]
    exact ⟨⟨"level == 1", .binary .eq (.var .level) (.lit (.nat 1))⟩, by cbv⟩
  obtain ⟨-, hshape, hlong⟩ := hguarded.shape schema hschema
  exact ⟨hne, hshort, hguarded, schema, hschema, hshape, hlong⟩

/-- A schema with a count that has too many digits to be written. -/
def hugeCount : Value :=
  .map [(.str "structure", .list [.map [(.str "heading", .str "# A"),
    (.str "count", .map [(.str "max", .int (10 ^ 4300))])]])]

theorem fits_hugeCount : Fits schemaForm hugeCount := by
  have hbounds : Fits (.record boundsMembers []) (.map [(.str "max", .int (10 ^ 4300))]) := by
    refine .record (fun m hm w hw => ?_) (fun _ h => by cases h) (by decide)
    simp only [boundsMembers, List.mem_cons, List.not_mem_nil, or_false] at hm
    rcases hm with rfl | rfl <;> cases hw
    exact .whole rfl rfl (by decide +kernel) fun _ h => by cases h
  have helement : Fits elementRecord (.map [(.str "heading", .str "# A"),
      (.str "count", .map [(.str "max", .int (10 ^ 4300))])]) := by
    refine .record (fun m hm w hw => ?_) (fun name h => ?_) (by decide)
    · simp only [List.mem_cons, List.not_mem_nil, or_false] at hm
      rcases hm with rfl | rfl | rfl | rfl | rfl | rfl | rfl | rfl | rfl | rfl | rfl | rfl | rfl | rfl
        <;> cases hw
      · exact .oneOf (.head _) (.text (by decide) (.inl rfl))
      · exact hbounds
    · cases List.mem_singleton.1 h
      exact ⟨_, rfl⟩
  refine .record (fun m hm w hw => ?_) (fun _ h => by cases h) (by decide)
  simp only [List.mem_cons, List.not_mem_nil, or_false] at hm
  rcases hm with rfl | rfl | rfl | rfl <;> cases hw
  refine .elements fun w hw => ?_
  cases List.mem_singleton.1 hw
  exact .oneOf (.tail _ (.head _)) helement

theorem schemaFlaws_hugeCount : schemaFlaws hugeCount = .error (.tooManyDigits none) :=
  failure?_eq_some_iff.1 (by decide +kernel)

/-- **A count that cannot be written stops the check**, although the value is of the form of schemas
and has no expressions. -/
theorem loadSchema_hugeCount : Fits schemaForm hugeCount ∧
    (∀ text, ¬SchemaExpression hugeCount text) ∧
    loadSchema hugeCount "" = .error (.fault (.tooManyDigits none)) := by
  refine ⟨fits_hugeCount, ?_, ?_⟩
  · rintro text ⟨elements, hget, h⟩
    cases hget
    cases h with
    | item hw h =>
      obtain rfl := List.mem_singleton.1 hw
      cases h with
      | heading hheading hexpr =>
        cases hheading
        cases hexpr
      | children hchildren => cases hchildren
  · rw [loadSchema_of_ne_null (by rintro ⟨⟩), schemaFlaws_hugeCount]

end Outline

import Outline.Proofs.Yaml.Compose
import Outline.Proofs.Yaml.Cut
import Outline.Yaml.Load

/-!
# How loading a YAML text can fail

A text that is YAML fails to be loaded only for a scalar in it that writes no value of its kind, for an
escape whose code is beyond the last character, or for a version with too long a number
(**`ill_of_load`**).

* `HasScalar`: the scalars of a node and their kinds;
* `Blamed`: a result that fails for one of some scalars;
* `Ill`: why a text cannot be loaded.
-/

namespace Outline.Yaml

/-- **The scalars of a node** and their kinds. A mapping can be used as the scalar at its key `=`. -/
inductive HasScalar : Node → Tag → String → Prop
  | self (tag : Tag) (text : String) : HasScalar (.scalar tag text) tag text
  | item {kind tag : Tag} {text : String} {items : List Node} {n : Node} (hn : n ∈ items)
      (h : HasScalar n tag text) : HasScalar (.sequence kind items) tag text
  | key {kind tag : Tag} {text : String} {entries : List (Node × Node)} {e : Node × Node}
      (he : e ∈ entries) (h : HasScalar e.1 tag text) : HasScalar (.mapping kind entries) tag text
  | value {kind tag : Tag} {text : String} {entries : List (Node × Node)} {e : Node × Node}
      (he : e ∈ entries) (h : HasScalar e.2 tag text) : HasScalar (.mapping kind entries) tag text
  | used {tag : Tag} {text : String} {entries : List (Node × Node)}
      (h : Node.scalarEntry? entries = some text) : HasScalar (.mapping tag entries) tag text

variable {α β γ : Type} {depth : Nat} {tag : Tag} {text : String} {fault : Fault}

/-- **A result that fails for one of some scalars**, or because the text is no YAML. -/
def Blamed (P : Tag → String → Prop) (r : Built α) : Prop :=
  ∀ e, r = .error e → e.2 = .notYaml ∨ ∃ tag text, P tag text ∧ buildScalar tag text = .error e.2

namespace Blamed

variable {P Q : Tag → String → Prop} {a : Built α} {b : Built β}

theorem ok (x : α) : Blamed P (.ok x) := fun _ h => nomatch h

theorem notYaml : Blamed P (.error (depth, .notYaml) : Built α) := by
  rintro e ⟨⟩
  exact .inl rfl

theorem mono (h : Blamed P a) (hPQ : ∀ tag text, P tag text → Q tag text) : Blamed Q a := by
  intro e he
  rcases h e he with hnot | ⟨tag, text, hP, hbuild⟩
  · exact .inl hnot
  · exact .inr ⟨tag, text, hPQ tag text hP, hbuild⟩

theorem both {f : α → β → γ} (ha : Blamed P a) (hb : Blamed P b) : Blamed P (both f a b) := by
  intro e he
  cases a with
  | ok x =>
    cases b with
    | ok y => cases he
    | error e' =>
      cases he
      exact hb e rfl
  | error e' =>
    cases b with
    | ok y =>
      cases he
      exact ha e rfl
    | error e'' =>
      obtain rfl := Except.error.inj he
      split
      · exact hb _ rfl
      · exact ha _ rfl

theorem map {f : α → β} (ha : Blamed P a) : Blamed P (a.map f) := by
  intro e he
  cases a with
  | ok x => cases he
  | error e' =>
    cases he
    exact ha e rfl

theorem atDepth (h : P tag text) : Blamed P (atDepth depth (buildScalar tag text)) := by
  intro e he
  unfold Yaml.atDepth at he
  split at he
  · cases he
  · rename_i f hf
    cases he
    exact .inr ⟨tag, text, h, hf⟩

theorem mapEntries {well : Bool} {parts : Built (List (Value × Value)) × Built (List (Value × Value))}
    (h : Blamed P parts.1 ∧ Blamed P parts.2) : Blamed P (mapEntries depth well parts) := by
  unfold Yaml.mapEntries
  split
  · exact h.1.both h.2
  · exact notYaml

end Blamed

/-- The scalars of nodes. -/
def HasScalarIn (ns : List Node) (tag : Tag) (text : String) : Prop := ∃ n ∈ ns, HasScalar n tag text

/-- The scalars of the keys and values of entries. -/
def HasScalarAt (es : List (Node × Node)) (tag : Tag) (text : String) : Prop :=
  ∃ e ∈ es, HasScalar e.1 tag text ∨ HasScalar e.2 tag text

theorem HasScalarIn.sequence {kind : Tag} {items : List Node} (tag : Tag) (text : String) :
    HasScalarIn items tag text → HasScalar (.sequence kind items) tag text :=
  fun ⟨_, hn, h⟩ => .item hn h

theorem HasScalarAt.mapping {kind : Tag} {entries : List (Node × Node)} (tag : Tag) (text : String) :
    HasScalarAt entries tag text → HasScalar (.mapping kind entries) tag text :=
  fun ⟨_, he, h⟩ => h.elim (.key he) (.value he)

theorem HasScalarIn.cons {n : Node} {ns : List Node} (tag : Tag) (text : String) :
    HasScalarIn ns tag text → HasScalarIn (n :: ns) tag text :=
  fun ⟨m, hm, h⟩ => ⟨m, List.mem_cons_of_mem n hm, h⟩

theorem HasScalarIn.first {n : Node} {ns : List Node} (tag : Tag) (text : String)
    (h : HasScalar n tag text) : HasScalarIn (n :: ns) tag text := ⟨n, List.mem_cons_self, h⟩

theorem HasScalarAt.cons {e : Node × Node} {es : List (Node × Node)} (tag : Tag) (text : String) :
    HasScalarAt es tag text → HasScalarAt (e :: es) tag text :=
  fun ⟨e', he', h⟩ => ⟨e', List.mem_cons_of_mem e he', h⟩

theorem HasScalarAt.key {k v : Node} {es : List (Node × Node)} (tag : Tag) (text : String)
    (h : HasScalar k tag text) : HasScalarAt ((k, v) :: es) tag text :=
  ⟨(k, v), List.mem_cons_self, .inl h⟩

theorem HasScalarAt.value {k v : Node} {es : List (Node × Node)} (tag : Tag) (text : String)
    (h : HasScalar v tag text) : HasScalarAt ((k, v) :: es) tag text :=
  ⟨(k, v), List.mem_cons_self, .inr h⟩

open Node

mutual

/-- **A node fails to be built only for its scalars.** -/
theorem blamed_build (depth : Nat) : ∀ n : Node, Blamed (HasScalar n) (n.build depth)
  | .scalar tag text => by
    unfold build
    split
    · exact .notYaml
    · exact .atDepth (.self tag text)
  | .sequence tag items => by
    unfold build
    split
    · exact ((blamed_buildItems (depth + 1) items).map).mono HasScalarIn.sequence
    · exact ((blamed_buildPairs (depth + 1) items).map).mono HasScalarIn.sequence
    · exact ((blamed_buildPairs (depth + 1) items).map).mono HasScalarIn.sequence
    · exact .notYaml
    · exact .notYaml
    · exact .notYaml
  | .mapping tag entries => by
    have hentries : Blamed (HasScalarAt entries)
        (mapEntries (depth + 1) (mergesWell entries) (buildEntries (depth + 1) entries)) :=
      .mapEntries (blamed_buildEntries (depth + 1) entries)
    unfold build
    split
    · exact (hentries.map).mono HasScalarAt.mapping
    · exact (hentries.map).mono HasScalarAt.mapping
    · exact .notYaml
    · exact .notYaml
    · exact .notYaml
    · split
      · rename_i text htext
        exact .atDepth (.used htext)
      · exact .notYaml

theorem blamed_buildItems (depth : Nat) :
    ∀ ns : List Node, Blamed (HasScalarIn ns) (buildItems depth ns)
  | [] => by
    unfold buildItems
    exact .ok _
  | n :: ns => by
    unfold buildItems
    exact ((blamed_build depth n).mono HasScalarIn.first).both
      ((blamed_buildItems depth ns).mono HasScalarIn.cons)

theorem blamed_buildPairs (depth : Nat) :
    ∀ ns : List Node, Blamed (HasScalarIn ns) (buildPairs depth ns)
  | [] => by
    unfold buildPairs
    exact .ok _
  | .mapping kind [(k, v)] :: ns => by
    have hpair : Blamed (HasScalar (.mapping kind [(k, v)]))
        (both Value.pair (build depth k) (build depth v)) :=
      ((blamed_build depth k).mono fun t s h => HasScalarAt.mapping t s (.key t s h)).both
        ((blamed_build depth v).mono fun t s h => HasScalarAt.mapping t s (.value t s h))
    unfold buildPairs
    exact (hpair.mono HasScalarIn.first).both ((blamed_buildPairs depth ns).mono HasScalarIn.cons)
  | .scalar _ _ :: _ => by
    unfold buildPairs
    exact .notYaml
  | .sequence _ _ :: _ => by
    unfold buildPairs
    exact .notYaml
  | .mapping _ [] :: _ => by
    unfold buildPairs
    exact .notYaml
  | .mapping _ (_ :: _ :: _) :: _ => by
    unfold buildPairs
    exact .notYaml

theorem blamed_buildEntries (depth : Nat) : ∀ es : List (Node × Node),
    Blamed (HasScalarAt es) (buildEntries depth es).1 ∧
      Blamed (HasScalarAt es) (buildEntries depth es).2
  | [] => by
    unfold buildEntries
    exact ⟨.ok _, .ok _⟩
  | (k, v) :: es => by
    obtain ⟨hmerged, hown⟩ := blamed_buildEntries depth es
    have hkey : Blamed (HasScalarAt ((k, v) :: es)) (build depth k) :=
      (blamed_build depth k).mono HasScalarAt.key
    have hvalue : Blamed (HasScalarAt ((k, v) :: es)) (build depth v) :=
      (blamed_build depth v).mono HasScalarAt.value
    have hmerge : Blamed (HasScalarAt ((k, v) :: es)) (buildMerged depth v) :=
      (blamed_buildMerged depth v).mono HasScalarAt.value
    unfold buildEntries
    dsimp only
    split
    · exact ⟨hmerge.both (hmerged.mono HasScalarAt.cons), hown.mono HasScalarAt.cons⟩
    · refine ⟨hmerged.mono HasScalarAt.cons, (Blamed.both ?_ hvalue).both (hown.mono HasScalarAt.cons)⟩
      split
      · exact .notYaml
      · split
        · split
          · exact .ok _
          · exact .notYaml
        · exact hkey

theorem blamed_buildMerged (depth : Nat) : ∀ n : Node, Blamed (HasScalar n) (buildMerged depth n)
  | .scalar _ _ => by
    unfold buildMerged
    exact .notYaml
  | .sequence _ items => by
    unfold buildMerged
    exact (blamed_buildMergedItems depth items).mono HasScalarIn.sequence
  | .mapping _ entries => by
    obtain ⟨hmerged, hown⟩ := blamed_buildEntries depth entries
    unfold buildMerged
    exact (hmerged.both hown).mono HasScalarAt.mapping

theorem blamed_buildMergedItems (depth : Nat) :
    ∀ ns : List Node, Blamed (HasScalarIn ns) (buildMergedItems depth ns)
  | [] => by
    unfold buildMergedItems
    exact .ok _
  | n :: ns => by
    unfold buildMergedItems
    exact ((blamed_buildMerged depth n).mono HasScalarIn.first).both
      ((blamed_buildMergedItems depth ns).mono HasScalarIn.cons)

end

/-! ## Texts -/

/-- **Why a text cannot be loaded**: it cannot be cut into tokens, or a scalar of its node writes no
value of its kind. -/
inductive Ill (source : String) : Fault → Prop
  | unreadable {fault : Fault} (h : Unreadable source.toList fault) : Ill source fault
  | scalar {fault : Fault} {ts : List Token} {n : Node} {tag : Tag} {text : String}
      (hts : tokens source.toList = .ok ts) (hn : Node.ofTokens? ts = .ok (some n))
      (hscalar : HasScalar n tag text) (h : buildScalar tag text = .error fault) : Ill source fault

/-- **A text that cannot be loaded is ill.** -/
theorem ill_of_load {source : String} (h : load source = .error fault) : Ill source fault := by
  rcases bind_eq_error h with h | ⟨ts, hts, h⟩
  · exact .unreadable (unreadable_of_tokens h)
  rcases bind_eq_error h with h | ⟨n?, hn, h⟩
  · rw [notYaml_of_ofTokens? h]
    exact .unreadable .notYaml
  cases n? with
  | none => cases h
  | some n =>
    cases hbuild : n.build 0 with
    | ok v =>
      simp only [hbuild] at h
      cases h
    | error e =>
      simp only [hbuild] at h
      cases h
      rcases blamed_build 0 n e hbuild with hnot | ⟨tag, text, hscalar, hfault⟩
      · rw [hnot]
        exact .unreadable .notYaml
      · exact .scalar hts hn hscalar hfault

/-- Only truth values, numbers, dates and moments fail to be built from YAML. -/
theorem tag_of_buildScalar (h : buildScalar tag text = .error fault) (hfault : fault ≠ .notYaml) :
    tag = .bool ∨ tag = .int ∨ tag = .float ∨ tag = .timestamp := by
  cases tag with
  | bool => exact .inl rfl
  | int => exact .inr (.inl rfl)
  | float => exact .inr (.inr (.inl rfl))
  | timestamp => exact .inr (.inr (.inr rfl))
  | null | str => cases h
  | binary =>
    unfold buildScalar buildBytes at h
    dsimp only at h
    split at h
    · split at h
      · cases h
      · cases h
        exact absurd rfl hfault
    · cases h
      exact absurd rfl hfault
  | _ =>
    cases h
    exact absurd rfl hfault

end Outline.Yaml

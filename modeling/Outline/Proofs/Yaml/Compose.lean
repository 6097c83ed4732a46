import Outline.Proofs.Except
import Outline.Proofs.Yaml.Keep
import Outline.Yaml.Node

/-!
# How reading the nodes of a YAML text can fail

Tokens that make up no document are no YAML; there is no other way in which their nodes cannot be
read (`notYaml_of_ofTokens?`).

* `Composing`: each of the ten readers of nodes fails in this way only.
-/

namespace Outline.Yaml

open Parse

variable {α β : Type} {n : Nat}

/-- Tokens are read wherever they stand. -/
def Anywhere (_ : Reading) : Prop := True

@[grind ←] theorem anywhere (s : Reading) : Anywhere s := trivial

/-- The text is no YAML. -/
def IsNotYaml (fault : Fault) : Prop := fault = .notYaml

@[grind ←] theorem isNotYaml : IsNotYaml .notYaml := rfl

/-- A reading of tokens that fails only because the text is no YAML. -/
abbrev Composes (x : Parse α) : Prop := Keeps Anywhere IsNotYaml x

@[grind ←] theorem composes_fail : Composes (Parse.fail : Parse α) := Keeps.throw rfl

@[grind ←] theorem composes_fail_bind {f : α → Parse β} :
    Composes ((Parse.fail : Parse α) >>= f) := Keeps.throw_bind rfl

@[grind ←] theorem composes_peek : Composes Parse.peek := by
  unfold Parse.peek
  grind

@[grind ←] theorem composes_drop : Composes drop := by
  unfold drop
  grind

@[grind ←] theorem composes_fullTag (t : TagText) : Composes (fullTag t) := by
  unfold fullTag
  grind

@[grind ←] theorem composes_properties : Composes properties := by
  unfold properties
  refine .bind composes_peek fun t => ?_
  split
  · refine .bind composes_drop fun _ => .bind composes_peek fun u => ?_
    grind
  · refine .bind composes_drop fun _ => .bind composes_peek fun u => ?_
    grind
  · exact .pure _

@[grind ←] theorem composes_begin (mark : Option String) : Composes (begin_ mark) := by
  unfold begin_
  grind

@[grind ←] theorem composes_complete (mark : Option String) (node : Node) :
    Composes (complete mark node) := by
  unfold complete
  grind

@[grind ←] theorem composes_separator (first : Bool) : Composes (separator first) := by
  unfold separator
  grind

/-- The readers of nodes fail only because the text is no YAML, within a number of steps. -/
structure Composing (n : Nat) : Prop where
  node : ∀ inBlock loose, Composes (Parse.node inBlock loose n)
  content : ∀ inBlock loose tag optional, Composes (Parse.content inBlock loose tag optional n)
  blockItems : Composes (Parse.blockItems n)
  looseItems : Composes (Parse.looseItems n)
  blockEntries : Composes (Parse.blockEntries n)
  blockPart : Composes (Parse.blockPart n)
  blockValue : Composes (Parse.blockValue n)
  flowItems : ∀ first, Composes (Parse.flowItems first n)
  flowEntries : ∀ first, Composes (Parse.flowEntries first n)
  flowPart : ∀ missing, Composes (Parse.flowPart missing n)
  flowValue : ∀ missing, Composes (Parse.flowValue missing n)

theorem Composing.zero : Composing 0 where
  node _ _ := composes_fail
  content _ _ _ _ := composes_fail
  blockItems := composes_fail
  looseItems := composes_fail
  blockEntries := composes_fail
  blockPart := composes_fail
  blockValue := composes_fail
  flowItems _ := composes_fail
  flowEntries _ := composes_fail
  flowPart _ := composes_fail
  flowValue _ := composes_fail

namespace Composing

theorem node_succ (ih : Composing n) (inBlock loose : Bool) :
    Composes (Parse.node inBlock loose (n + 1)) := by
  have h := ih.content
  unfold Parse.node
  grind

theorem content_succ (ih : Composing n) (inBlock loose : Bool) (tag : Option String)
    (optional : Bool) : Composes (Parse.content inBlock loose tag optional (n + 1)) := by
  obtain ⟨-, -, hblock, hloose, hentries, -, -, hflow, hpairs, -, -⟩ := ih
  unfold Parse.content
  refine .bind composes_peek fun t => ?_
  grind

theorem blockItems_succ (ih : Composing n) : Composes (Parse.blockItems (n + 1)) := by
  have h := ih.node
  have h' := ih.blockItems
  unfold Parse.blockItems
  grind

theorem looseItems_succ (ih : Composing n) : Composes (Parse.looseItems (n + 1)) := by
  have h := ih.node
  have h' := ih.looseItems
  unfold Parse.looseItems
  grind

theorem blockEntries_succ (ih : Composing n) : Composes (Parse.blockEntries (n + 1)) := by
  obtain ⟨-, -, -, -, h, hpart, hvalue, -, -, -, -⟩ := ih
  unfold Parse.blockEntries
  grind

theorem blockPart_succ (ih : Composing n) : Composes (Parse.blockPart (n + 1)) := by
  have h := ih.node
  unfold Parse.blockPart
  grind

theorem blockValue_succ (ih : Composing n) : Composes (Parse.blockValue (n + 1)) := by
  have h := ih.blockPart
  unfold Parse.blockValue
  grind

theorem flowItems_succ (ih : Composing n) (first : Bool) :
    Composes (Parse.flowItems first (n + 1)) := by
  obtain ⟨hnode, -, -, -, -, -, -, h, -, hpart, hvalue⟩ := ih
  unfold Parse.flowItems
  refine .bind composes_peek fun t => ?_
  split
  · exact .bind composes_drop fun _ => .pure _
  · refine .bind (composes_separator first) fun _ => .bind composes_peek fun u => ?_
    grind

theorem flowEntries_succ (ih : Composing n) (first : Bool) :
    Composes (Parse.flowEntries first (n + 1)) := by
  obtain ⟨hnode, -, -, -, -, -, -, -, h, hpart, hvalue⟩ := ih
  unfold Parse.flowEntries
  refine .bind composes_peek fun t => ?_
  split
  · exact .bind composes_drop fun _ => .pure _
  · refine .bind (composes_separator first) fun _ => .bind composes_peek fun u => ?_
    grind

theorem flowPart_succ (ih : Composing n) (missing : Token → Bool) :
    Composes (Parse.flowPart missing (n + 1)) := by
  have h := ih.node
  unfold Parse.flowPart
  grind

theorem flowValue_succ (ih : Composing n) (missing : Token → Bool) :
    Composes (Parse.flowValue missing (n + 1)) := by
  have h := ih.flowPart
  unfold Parse.flowValue
  grind

end Composing

/-- The readers of nodes fail only because the text is no YAML. -/
theorem composing (n : Nat) : Composing n := by
  induction n with
  | zero => exact .zero
  | succ n ih =>
    exact ⟨ih.node_succ, ih.content_succ, ih.blockItems_succ, ih.looseItems_succ,
      ih.blockEntries_succ, ih.blockPart_succ, ih.blockValue_succ, ih.flowItems_succ,
      ih.flowEntries_succ, ih.flowPart_succ, ih.flowValue_succ⟩

/-! ## Documents -/

@[grind ←] theorem composes_directives (fuel : Nat) (versioned : Bool) :
    Composes (directives fuel versioned) := by
  induction fuel generalizing versioned with
  | zero => exact composes_fail
  | succ fuel ih =>
    unfold directives
    grind

@[grind ←] theorem composes_documentEnds (fuel : Nat) : Composes (documentEnds fuel) := by
  induction fuel with
  | zero => exact composes_fail
  | succ fuel ih =>
    unfold documentEnds
    grind

@[grind ←] theorem composes_ending (fuel : Nat) : Composes (ending fuel) := by
  unfold ending
  grind

/-- A document behind directives, if there are any. -/
theorem composes_started (fuel : Nat) : Composes (do
    directives fuel false
    match ← Parse.peek with
    | .documentStart => drop
    | _ => Parse.fail
    let n ← if isBoundary (← Parse.peek) then pure .empty else Parse.node true false fuel
    ending fuel
    return some n) := by
  have h := (composing fuel).node
  refine .bind (composes_directives fuel false) fun _ => .bind composes_peek fun t => ?_
  grind

theorem composes_document (fuel : Nat) : Composes (document fuel) := by
  have h := (composing fuel).node
  have hstarted := composes_started fuel
  unfold document
  refine .bind composes_peek fun t => ?_
  split
  · exact .pure _
  · split
    · exact hstarted
    · exact hstarted
    · exact hstarted
    · exact hstarted
    · grind

/-- **Tokens that make up no document are no YAML.** -/
theorem notYaml_of_ofTokens? {ts : List Token} {fault : Fault}
    (h : Node.ofTokens? ts = .error fault) : fault = .notYaml := by
  rcases bind_eq_error h with h | ⟨p, -, h⟩
  · exact (composes_document _).error_of_run trivial h
  · cases h

end Outline.Yaml

import Outline.Rule.Structure

/-!
# Passes

The findings of a document come pass after pass, and each pass has a kind of findings of its own:
one tells by a finding which pass it comes from, and **the findings that come from a pass are those
that the pass makes** (`ofPass_structureFindings`).

* `Pass`, `Finding.pass`: the passes, and the one that a finding comes from;
* `ofPass`: the findings that come from a pass, in order.
-/

namespace Outline

/-- The five passes, in order. -/
inductive Pass where
  | wrongFirst
  | unexpected
  | missing
  | misplaced
  | tooFew
deriving DecidableEq

/-- The pass that a finding comes from. -/
def Finding.pass : Finding → Pass
  | .wrongFirst .. => .wrongFirst
  | .unexpected .. => .unexpected
  | .missing .. => .missing
  | .misplaced .. => .misplaced
  | .tooFew .. => .tooFew

/-- The findings that come from a pass. -/
def ofPass (pass : Pass) (findings : List Finding) : List Finding :=
  findings.filter fun f => f.pass == pass

theorem ofPass_append (pass : Pass) (fs gs : List Finding) :
    ofPass pass (fs ++ gs) = ofPass pass fs ++ ofPass pass gs :=
  List.filter_append _ _

/-- Findings of one kind come from its pass. -/
theorem ofPass_map {α : Type} {find : α → Finding} (own : Pass) (h : ∀ a, (find a).pass = own)
    (pass : Pass) (l : List α) :
    ofPass pass (l.map find) = if own = pass then l.map find else [] := by
  unfold ofPass
  by_cases hown : own = pass
  · rw [if_pos hown]
    refine List.filter_eq_self.2 fun f hf => ?_
    obtain ⟨a, -, rfl⟩ := List.mem_map.1 hf
    exact beq_iff_eq.2 ((h a).trans hown)
  · rw [if_neg hown]
    refine List.filter_eq_nil_iff.2 fun f hf => ?_
    obtain ⟨a, -, rfl⟩ := List.mem_map.1 hf
    rw [h a, beq_iff_eq]
    exact hown

section

variable (accepts : Accepts) (b : Binding) (d : Document) (elements : List Element)

/-- The findings that come from a pass, pass after pass. -/
theorem ofPass_structureFindings (pass : Pass) :
    ofPass pass (structureFindings accepts b d elements) =
      (if .wrongFirst = pass then wrongFirsts accepts (firstPairs b d elements) else []) ++
        (if .unexpected = pass then unexpectedSections b d else []) ++
        (if .missing = pass then missingElements b (searchMisplaced accepts b d).found else []) ++
        (if .misplaced = pass then misplacedSections (searchMisplaced accepts b d).found else []) ++
        if .tooFew = pass then tooFewSections b else [] := by
  unfold structureFindings
  rw [ofPass_append, ofPass_append, ofPass_append, ofPass_append]
  unfold wrongFirsts unexpectedSections missingElements misplacedSections tooFewSections
  rw [ofPass_map .wrongFirst fun _ => rfl, ofPass_map .unexpected fun _ => rfl,
    ofPass_map .missing fun _ => rfl, ofPass_map .misplaced fun _ => rfl,
    ofPass_map .tooFew fun _ => rfl]

theorem ofPass_unexpected :
    ofPass .unexpected (structureFindings accepts b d elements) = unexpectedSections b d := by
  simp [ofPass_structureFindings]

theorem ofPass_missing :
    ofPass .missing (structureFindings accepts b d elements) =
      missingElements b (searchMisplaced accepts b d).found := by
  simp [ofPass_structureFindings]

theorem ofPass_misplaced :
    ofPass .misplaced (structureFindings accepts b d elements) =
      misplacedSections (searchMisplaced accepts b d).found := by
  simp [ofPass_structureFindings]

theorem ofPass_tooFew :
    ofPass .tooFew (structureFindings accepts b d elements) = tooFewSections b := by
  simp [ofPass_structureFindings]

end

end Outline

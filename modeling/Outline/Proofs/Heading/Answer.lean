import Mathlib
import Outline.Proofs.Expr.Fault
import Outline.Proofs.Heading.Matcher
import Outline.Schema.Load

/-!
# Questions about headings that have an answer

Whatever has been asked before, a matcher answers a question about a heading, unless a pattern cannot
be used for another reason than being malformed, or the evaluation of an expression comes to a stuck
part; malformed patterns are compared as they are written (**`ask_answered`**).

* `HeadingSpec.Compiled`: specifications as they are in schemas;
* `HeadingSpec.Raises`: questions without an answer;
* `Answered`: what becomes of a question.
-/

namespace Outline

variable {path : String} {h : Heading} {spec : HeadingSpec} {fault : Fault}

/-- The values of the variables for a heading. -/
def bindings (filename heading : String) (level : Nat) : Variable → Value
  | .filename => .str filename
  | .heading => .str heading
  | .level => .int level

theorem accepts_eq_error_iff {e : Expression} {filename heading : String} {level : Nat} :
    e.accepts filename heading level = .error fault ↔
      e.tree.eval (bindings filename heading level) = .error fault := bind_pure_eq_error_iff

/-- A specification whose expression, if it has one, has been compiled. -/
def HeadingSpec.Compiled : HeadingSpec → Prop
  | .expr source e => Expression.compile source = .ok e
  | _ => True

theorem compiled_of_ofExpression {source : String}
    (h : HeadingSpec.ofExpression source = .ok spec) : spec.Compiled := by
  unfold HeadingSpec.ofExpression at h
  split at h
  · rename_i e he
    cases h
    exact he
  · cases h
  · cases h

/-- The specifications that are read from schemas are compiled. -/
theorem compiled_of_ofValue {v : Value} (h : HeadingSpec.ofValue v = .ok spec) :
    spec.Compiled := by
  unfold HeadingSpec.ofValue at h
  split at h
  · cases h
    trivial
  · split at h
    · obtain ⟨source, -, h⟩ := bind_eq_ok.1 h
      exact compiled_of_ofExpression h
    · obtain ⟨pattern, -, h⟩ := bind_eq_ok.1 h
      cases h
      trivial
    · cases h

/-- A question without an answer. -/
def HeadingSpec.Raises (path : String) (h : Heading) : HeadingSpec → Fault → Prop
  | .literal _, _ => False
  | .pattern text, fault => Unusable (anchored text) fault
  | .expr _ e, fault =>
    fileStem path ≠ "" ∧ e.tree.Raises (bindings (fileStem path) h.text h.level) fault

theorem judge_eq_error_iff (hspec : spec.Compiled) :
    spec.judge path h = .error fault ↔ spec.Raises path h fault := by
  cases spec with
  | literal text => exact iff_of_false (by rintro ⟨⟩) id
  | pattern text =>
    rw [HeadingSpec.judge, bind_pure_eq_error_iff]
    exact usablePattern_eq_error_iff
  | expr source e =>
    obtain ⟨ls, hderives⟩ := derives_of_compile hspec
    have hname : (fileStem path).isEmpty = true ↔ fileStem path = "" := String.isEmpty_iff
    unfold HeadingSpec.judge judgeExpression HeadingSpec.Raises
    dsimp only
    split
    · rename_i hempty
      exact iff_of_false (by rintro ⟨⟩) fun h => h.1 (hname.1 hempty)
    · rename_i hnonempty
      rw [accepts_eq_error_iff, hderives.accounted fault, and_iff_right (mt hname.2 hnonempty)]

/-- **What becomes of a question.** There is an answer unless the specification raises a fault for the
heading, and then it is this fault. A malformed pattern is compared as it is written. -/
structure Answered (path : String) (h : Heading) (spec : HeadingSpec) (answer : Except Fault Bool) :
    Prop where
  answers : (∃ b, answer = .ok b) ↔ ¬∃ fault, spec.Raises path h fault
  raises : ∀ fault, answer = .error fault ↔ spec.Raises path h fault
  literally : ∀ text, spec = .pattern text → Malformed (anchored text) →
    answer = .ok (h.written == withoutEnds (anchored text))

/-- **A matcher answers questions** about headings, but for patterns that cannot be used and are not
malformed and for stuck parts of expressions. In expressions, malformed patterns are never matched and
leave texts as they are. -/
theorem ask_answered {m : Matcher} (hm : m.Faithful) (path : String) (h : Heading)
    {spec : HeadingSpec} (hspec : spec.Compiled) :
    Answered path h spec (m.ask path ⟨spec, h⟩).answer ∧
      ∀ (f : Builtin) (s t p : String), f.pattern? [s, t] = some p → Malformed p →
        f.applyTexts [s, t] = .ok (f.fallback s) := by
  rw [hm.answer_ask]
  dsimp only
  refine ⟨⟨?_, fun fault => judge_eq_error_iff hspec, ?_⟩, fun f s t p hp hmal =>
    Builtin.applyTexts_of_malformed hp hmal⟩
  · constructor
    · rintro ⟨b, hb⟩ ⟨fault, hraises⟩
      rw [(judge_eq_error_iff hspec).2 hraises] at hb
      cases hb
    · intro hnone
      cases hjudge : spec.judge path h with
      | ok b => exact ⟨b, rfl⟩
      | error fault => exact absurd ⟨fault, (judge_eq_error_iff hspec).1 hjudge⟩ hnone
  · rintro text rfl hmal
    rw [HeadingSpec.judge, hmal.usablePattern]
    rfl

/-- A heading with the text `A`. -/
def headingA : Heading := ⟨1, "A", 1, 1, "a"⟩

theorem malformed_open : Malformed (anchored "# A(") :=
  ⟨"missing ), unterminated subpattern", some 4, by cbv⟩

/-- A pattern with an open bracket is compared as it is written. -/
theorem ask_answered_open : Matcher.Faithful {} ∧ HeadingSpec.Compiled (.pattern "# A(") ∧
    Malformed (anchored "# A(") ∧ (Matcher.ask {} "a.md" ⟨.pattern "# A(", headingA⟩).answer =
      .ok (headingA.written == withoutEnds (anchored "# A(")) :=
  ⟨Matcher.faithful_empty, trivial, malformed_open,
    (@ask_answered {} Matcher.faithful_empty "a.md" headingA (.pattern "# A(")
      trivial).1.literally _ rfl malformed_open⟩

/-- An expression with a pattern that repeats a letter more often than can be counted. -/
def manyTurns : Expression :=
  ⟨"match(heading, \"A\x7b4294967296\x7d\")",
    .call .match_ [.var .heading, .lit (.text "A\x7b4294967296\x7d")]⟩

/-- **A repetition with too many turns is a fault**, although the expression is compiled. -/
theorem ask_manyTurns : HeadingSpec.Compiled (.expr manyTurns.source manyTurns) ∧
    (Matcher.ask {} "a.md" ⟨.expr manyTurns.source manyTurns, headingA⟩).answer =
      .error .outOfRange := by
  constructor
  · show Expression.compile manyTurns.source = .ok manyTurns
    cbv
  · decide +kernel

end Outline

import Outline.Heading.Matcher

/-!
# What a matcher remembers

A matcher only remembers what became of patterns (`Matcher.Faithful`), so that **it answers every
question as if it had not been asked before** (`Matcher.Faithful.answer_ask`). Questions whose
answer is yes are never a fault (`Matcher.Faithful.askAll_of_accepts`).
-/

namespace Outline

namespace Matcher

/-- What is remembered of each pattern is what became of it. -/
def Faithful (m : Matcher) : Prop := ∀ entry ∈ m.cache, usablePattern entry.1 = .ok entry.2

theorem faithful_empty : Faithful {} := fun _ h => absurd h List.not_mem_nil

theorem Faithful.add {m : Matcher} (h : m.Faithful) {pattern : String}
    {compiled : Option Regex.Pattern} (hp : usablePattern pattern = .ok compiled) :
    Faithful ⟨m.cache ++ [(pattern, compiled)]⟩ := by
  intro entry hentry
  rcases List.mem_append.1 hentry with hentry | hentry
  · exact h entry hentry
  · rw [List.mem_singleton.1 hentry]
    exact hp

theorem Faithful.of_lookup {m : Matcher} (h : m.Faithful) {pattern : String}
    {compiled : Option Regex.Pattern} (hlookup : m.cache.lookup pattern = some compiled) :
    usablePattern pattern = .ok compiled := by
  obtain ⟨before, later, hsplit, -⟩ := List.lookup_eq_some_iff.1 hlookup
  exact h (pattern, compiled) (hsplit ▸ List.mem_append_right _ List.mem_cons_self)

theorem Faithful.find {m : Matcher} (h : m.Faithful) (pattern : String) :
    (m.find pattern).1 = usablePattern pattern ∧ (m.find pattern).2.1.Faithful := by
  unfold Matcher.find
  cases hlookup : m.cache.lookup pattern with
  | some compiled => exact ⟨(h.of_lookup hlookup).symm, h⟩
  | none =>
    cases hcompile : Regex.compile pattern with
    | ok p =>
      have hp : usablePattern pattern = .ok (some p) := by rw [usablePattern, hcompile]
      exact ⟨hp.symm, h.add hp⟩
    | error e =>
      dsimp only
      cases hfault : e.fault? with
      | some f =>
        have hp : usablePattern pattern = .error f := by
          simp only [usablePattern, hcompile, hfault]
        exact ⟨hp.symm, h⟩
      | none =>
        have hp : usablePattern pattern = .ok none := by
          simp only [usablePattern, hcompile, hfault]
        exact ⟨hp.symm, h.add hp⟩

/-- **A matcher answers as if it had not been asked before.** -/
theorem Faithful.answer_ask {m : Matcher} (h : m.Faithful) (path : String) (q : Question) :
    (m.ask path q).answer = q.spec.judge path q.heading := by
  obtain ⟨spec, heading⟩ := q
  cases spec with
  | literal text => simp only [Matcher.ask]
  | expr source e => simp only [Matcher.ask]
  | pattern text =>
    simp only [Matcher.ask]
    rw [(h.find (anchored text)).1]
    simp only [HeadingSpec.judge]
    cases usablePattern (anchored text) <;> rfl

theorem Faithful.ask {m : Matcher} (h : m.Faithful) (path : String) (q : Question) :
    (m.ask path q).matcher.Faithful := by
  obtain ⟨spec, heading⟩ := q
  cases spec with
  | literal text => exact h
  | expr source e => exact h
  | pattern text => exact (h.find (anchored text)).2

theorem judge_of_accepts {path : String} {spec : HeadingSpec} {heading : Heading}
    (h : spec.accepts path heading = true) : spec.judge path heading = .ok true := by
  unfold HeadingSpec.accepts at h
  split at h
  · rename_i b hb
    rw [hb, h]
  · cases h

/-- **Questions whose answer is yes are no faults.** -/
theorem Faithful.askAll_of_accepts {path : String} (questions : List Question) :
    ∀ {m : Matcher}, m.Faithful →
      (∀ q ∈ questions, q.spec.accepts path q.heading = true) →
      (m.askAll path questions).1 = none ∧ (m.askAll path questions).2.1.Faithful := by
  induction questions with
  | nil => intro m h _; exact ⟨rfl, h⟩
  | cons q qs ih =>
    intro m h hqs
    obtain ⟨hq, hqs⟩ := List.forall_mem_cons.1 hqs
    have hanswer := (h.answer_ask path q).trans (judge_of_accepts hq)
    simp only [askAll, hanswer]
    exact ih (h.ask path q) hqs

end Matcher

end Outline

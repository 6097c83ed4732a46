import Outline.Heading.Spec

/-!
# Matchers

A matcher answers question after question whether a heading satisfies a specification, and
remembers each pattern that it had to compile: a malformed one is noticed once.

* `Matcher`: the patterns so far, in the order of their first use;
* `Matcher.ask`: one question;
* `Matcher.askAll`: questions in a row, up to the first fault.
-/

namespace Outline

/-- The anchored patterns used so far and what became of them: nothing for a malformed one. -/
structure Matcher where
  cache : List (String × Option Regex.Pattern) := []

/-- A question: does a heading satisfy a specification? -/
structure Question where
  spec : HeadingSpec
  heading : Heading

/-- The answer to a question, the matcher behind it, and what was noticed. -/
structure Reply where
  answer : Except Fault Bool
  matcher : Matcher
  warnings : List String := []

namespace Matcher

/-- The words about a malformed pattern. -/
def malformedNotice (pattern : String) (e : Regex.Error) : String :=
  "Invalid heading regex " ++ shown pattern ++ " (" ++ e.message pattern ++
    "); matching it literally"

/-- What becomes of an anchored pattern, the matcher behind it, and what was noticed. A pattern
whose use is a fault is not remembered. -/
def find (m : Matcher) (anchored : String) :
    Except Fault (Option Regex.Pattern) × Matcher × List String :=
  match m.cache.lookup anchored with
  | some compiled => (.ok compiled, m, [])
  | none =>
    match Regex.compile anchored with
    | .ok p => (.ok (some p), ⟨m.cache ++ [(anchored, some p)]⟩, [])
    | .error e =>
      match e.fault? with
      | some f => (.error f, m, [])
      | none => (.ok none, ⟨m.cache ++ [(anchored, none)]⟩, [malformedNotice anchored e])

/-- One question about a heading of the document with the given path. -/
def ask (m : Matcher) (path : String) (q : Question) : Reply :=
  match q.spec with
  | .pattern text =>
    let (compiled, m, warnings) := m.find (anchored text)
    ⟨compiled.map fun c => matchesAnchored (anchored text) c q.heading.written, m, warnings⟩
  | spec => ⟨spec.judge path q.heading, m, []⟩

/-- Questions in a row: the first fault, the matcher behind them, and what was noticed. -/
def askAll (path : String) : (m : Matcher) → List Question → Option Fault × Matcher × List String
  | m, [] => (none, m, [])
  | m, q :: qs =>
    let reply := m.ask path q
    match reply.answer with
    | .error f => (some f, reply.matcher, reply.warnings)
    | .ok _ =>
      let (fault, m, warnings) := askAll path reply.matcher qs
      (fault, m, reply.warnings ++ warnings)

end Matcher

end Outline

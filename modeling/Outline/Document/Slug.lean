import Outline.Text.Blank
import Outline.Text.Letter
import Outline.Text.Word

/-!
# Slugs

The anchor of a heading: lower-case ASCII letters, digits, underscores and single hyphens between
them.

* `slugChars`, `slug`: the anchor of a text;
* `IsSlug`: the texts that are anchors.
-/

namespace Outline

/-- A character that an anchor keeps; the space becomes a hyphen later. -/
def slugKeeps (c : Char) : Bool :=
  let n := c.toNat
  (97 ≤ n && n ≤ 122) || (48 ≤ n && n ≤ 57) || c == '_' || c == '-' || c == ' '

/-- One hyphen in place of each run of hyphens. -/
def joinHyphens : List Char → List Char
  | [] => []
  | [c] => [c]
  | a :: b :: cs =>
    if a == '-' && b == '-' then joinHyphens (b :: cs) else a :: joinHyphens (b :: cs)

/-- The anchor of a text: in lower case, without other characters, spaces as hyphens, runs of
hyphens joined, none at the ends. -/
def slugChars (cs : List Char) : List Char :=
  let kept := (lowerChars cs).filter slugKeeps
  trim (· == '-') (joinHyphens (kept.map fun c => if c == ' ' then '-' else c))

/-- The anchor of a heading text. -/
def slug (s : String) : String := String.ofList (slugChars s.toList)

/-- The texts that are anchors: letters, digits, underscores and hyphens, no two hyphens together
and none at the ends. -/
def IsSlug (cs : List Char) : Prop :=
  (∀ c ∈ cs, slugKeeps c = true ∧ c ≠ ' ') ∧
    (∀ a b, [a, b] <:+: cs → ¬ (a = '-' ∧ b = '-')) ∧
    cs.head? ≠ some '-' ∧ cs.getLast? ≠ some '-'

end Outline

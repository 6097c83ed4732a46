/-!
# Finding and replacing texts

* `startsWith`, `endsWith`: whether a text begins or ends with another;
* `findFrom?`, `find?`, `findLast?`: where a text occurs in another, first or last;
* `contains`: whether it occurs;
* `replaceAll`: a text with every occurrence of another replaced, from left to right.
-/

namespace Outline.Text

/-- Whether `part` stands at the front of `cs`. -/
def startsWith (part cs : List Char) : Bool := part.isPrefixOf cs

/-- Whether `part` stands at the end of `cs`. -/
def endsWith (part cs : List Char) : Bool := part.isSuffixOf cs

/-- The first place at or after `i` where `part` occurs; `cs` is the text from `i` on. -/
def findFrom? (part : List Char) : (cs : List Char) → (i : Nat) → Option Nat
  | [], i => if part.isEmpty then some i else none
  | c :: cs, i => if startsWith part (c :: cs) then some i else findFrom? part cs (i + 1)

/-- The first place where `part` occurs. -/
def find? (part cs : List Char) : Option Nat := findFrom? part cs 0

/-- The last place, beginning with place `i`, where `part` occurs. -/
def findLastFrom? (part : List Char) : (cs : List Char) → (i : Nat) → Option Nat
  | [], i => if part.isEmpty then some i else none
  | c :: cs, i =>
    match findLastFrom? part cs (i + 1) with
    | some j => some j
    | none => if startsWith part (c :: cs) then some i else none

/-- The last place where `part` occurs. -/
def findLast? (part cs : List Char) : Option Nat := findLastFrom? part cs 0

/-- Whether `part` occurs. -/
def contains (cs part : List Char) : Bool := (find? part cs).isSome

/-- Replaces occurrences of `old`, which is not empty; `skip` characters belong to an occurrence
already replaced. -/
def replaceFrom (old new : List Char) : (skip : Nat) → List Char → List Char
  | _, [] => []
  | skip + 1, _ :: cs => replaceFrom old new skip cs
  | 0, c :: cs =>
    if startsWith old (c :: cs) then new ++ replaceFrom old new (old.length - 1) cs
    else c :: replaceFrom old new 0 cs

/-- A text with every occurrence of `old` replaced; an empty `old` occurs before each character and
at the end. -/
def replaceAll (cs old new : List Char) : List Char :=
  if old.isEmpty then new ++ cs.flatMap (fun c => c :: new) else replaceFrom old new 0 cs

end Outline.Text

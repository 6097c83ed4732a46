import Outline.Fault

/-!
# Wildcards

Patterns of names: a question mark stands for one character, a star for any number of them, and
brackets for one character of a class or, behind an exclamation mark, for one that is not in it.

* `hasWildcard`: whether a text is a pattern at all;
* `CharClass`, `CharClass.read`: what stands between brackets;
* `Wildcard`, `readWildcards`: a pattern as the row of its signs;
* `matchesWildcards`: whether a name fits a pattern.
-/

namespace Outline

/-- Whether a text has a sign that stands for other characters. -/
def hasWildcard (cs : List Char) : Bool := cs.any fun c => c == '*' || c == '?' || c == '['

/-! ## Classes of characters -/

/-- A member of a class: a character, or all from one to another. -/
inductive ClassMember where
  | char (c : Char)
  | range (first last : Char)
deriving DecidableEq

namespace ClassMember

/-- Whether a member has any characters. -/
def isFull : ClassMember → Bool
  | .char _ => true
  | .range first last => first ≤ last

/-- Whether a character belongs to a member. -/
def contains (c : Char) : ClassMember → Bool
  | .char d => c == d
  | .range first last => first ≤ c && c ≤ last

/-- The members that a text writes. A hyphen between two characters makes a range. -/
def readAll : List Char → List ClassMember
  | a :: '-' :: b :: cs => .range a b :: readAll cs
  | c :: cs => .char c :: readAll cs
  | [] => []

end ClassMember

/-- A class of characters, or all that are not in it. -/
structure CharClass where
  negated : Bool
  members : List ClassMember
deriving DecidableEq

namespace CharClass

/-- The class that a text between brackets writes. Empty ranges do not count; what is then the first
character may still be the sign of negation. -/
def read (cs : List Char) : CharClass :=
  match cs with
  | '!' :: cs => ⟨true, (ClassMember.readAll cs).filter ClassMember.isFull⟩
  | cs =>
    match (ClassMember.readAll cs).filter ClassMember.isFull with
    | .char '!' :: ms => ⟨true, ms⟩
    | .range '!' last :: ms => ⟨true, .char '-' :: .char last :: ms⟩
    | ms => ⟨false, ms⟩

/-- Whether a character belongs to a class. -/
def contains (k : CharClass) (c : Char) : Bool := k.members.any (·.contains c) != k.negated

end CharClass

/-! ## Patterns -/

/-- A sign of a pattern. -/
inductive Wildcard where
  | char (c : Char)
  | anyChar
  | anyText
  | oneOf (k : CharClass)
deriving DecidableEq

/-- A character at the front of a text, and the rest; nothing where the text starts otherwise. -/
def takeChar (c : Char) (cs : List Char) : List Char × List Char :=
  if cs.head? == some c then ([c], cs.drop 1) else ([], cs)

/-- The text between brackets and the rest of a pattern that starts behind the left one, if there is a
right one. A bracket that would leave the class empty is a member of it. -/
def takeClass (cs : List Char) : Option (List Char × List Char) :=
  let (negation, cs) := takeChar '!' cs
  let (bracket, cs) := takeChar ']' cs
  match cs.dropWhile (· != ']') with
  | [] => none
  | _ :: rest => some (negation ++ bracket ++ cs.takeWhile (· != ']'), rest)

theorem length_takeChar (c : Char) (cs : List Char) : (takeChar c cs).2.length ≤ cs.length := by
  unfold takeChar
  split <;> simp

theorem length_dropWhile_le {α : Type} (p : α → Bool) (l : List α) :
    (l.dropWhile p).length ≤ l.length := (List.dropWhile_suffix p).length_le

/-- What is left behind a class is shorter than what was there. -/
theorem length_takeClass {cs inner rest : List Char} (h : takeClass cs = some (inner, rest)) :
    rest.length < cs.length := by
  unfold takeClass at h
  simp only at h
  split at h
  · cases h
  · rename_i c tail heq
    simp only [Option.some.injEq, Prod.mk.injEq] at h
    have h1 := length_dropWhile_le (· != ']') (takeChar ']' (takeChar '!' cs).2).2
    have h2 := length_takeChar ']' (takeChar '!' cs).2
    have h3 := length_takeChar '!' cs
    rw [heq, List.length_cons, h.2] at h1
    omega

/-- The signs of a pattern. A left bracket without a right one stands for itself. -/
def readWildcards : List Char → List Wildcard
  | [] => []
  | '*' :: cs => .anyText :: readWildcards cs
  | '?' :: cs => .anyChar :: readWildcards cs
  | '[' :: cs =>
    match h : takeClass cs with
    | none => .char '[' :: readWildcards cs
    | some (inner, rest) =>
      have : rest.length < cs.length := length_takeClass h
      .oneOf (.read inner) :: readWildcards rest
  | c :: cs => .char c :: readWildcards cs
termination_by cs => cs.length

/-- Whether a name fits a pattern. -/
def matchesWildcards : List Wildcard → List Char → Bool
  | [], cs => cs.isEmpty
  | .anyText :: ws, [] => matchesWildcards ws []
  | .anyText :: ws, c :: cs => matchesWildcards ws (c :: cs) || matchesWildcards (.anyText :: ws) cs
  | _ :: _, [] => false
  | .char d :: ws, c :: cs => c == d && matchesWildcards ws cs
  | .anyChar :: ws, _ :: cs => matchesWildcards ws cs
  | .oneOf k :: ws, c :: cs => k.contains c && matchesWildcards ws cs

/-- Whether a name fits a written pattern. -/
def fitsPattern (pattern name : List Char) : Bool := matchesWildcards (readWildcards pattern) name

end Outline

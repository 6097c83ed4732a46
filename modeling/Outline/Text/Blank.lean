/-!
# Blanks, cuts and trims

The blank characters of every script, and the ways to cut a text into pieces and to trim it. All of
them work on lists, so that they apply to lines, words and characters alike.

* `isBlank`: a blank character;
* `cut`, `cutOn`: the pieces between the members that satisfy a test, empty ones kept;
* `words`: the pieces between blanks, empty ones left out;
* `trimLeft`, `trimRight`, `trim`: a list without the members at its ends that satisfy a test;
* `strip`, `stripRight`: a text without the blanks at its ends.
-/

namespace Outline

/-- A blank character: the ASCII controls 9 to 13 and 28 to 31, the space, and the spaces and line
separators of other scripts. -/
def isBlank (c : Char) : Bool :=
  let n := c.toNat
  (9 ≤ n && n ≤ 13) || (28 ≤ n && n ≤ 32) || n == 0x85 || n == 0xA0 || n == 0x1680 ||
    (0x2000 ≤ n && n ≤ 0x200A) || n == 0x2028 || n == 0x2029 || n == 0x202F || n == 0x205F ||
    n == 0x3000

section Lists

variable {α : Type}

/-- The pieces of a list between the members that satisfy `p`: one more than there are cuts. -/
def cut (p : α → Bool) : List α → List (List α)
  | [] => [[]]
  | a :: as =>
    if p a then [] :: cut p as
    else match cut p as with
      | [] => [[a]]
      | piece :: pieces => (a :: piece) :: pieces

/-- A list without the members at its front that satisfy `p`. -/
def trimLeft (p : α → Bool) (l : List α) : List α := l.dropWhile p

/-- A list without the members at its end that satisfy `p`. -/
def trimRight (p : α → Bool) (l : List α) : List α := (l.reverse.dropWhile p).reverse

/-- A list without the members at both ends that satisfy `p`. -/
def trim (p : α → Bool) (l : List α) : List α := trimRight p (trimLeft p l)

end Lists

/-- The pieces of a text between the occurrences of a character. -/
def cutOn (sep : Char) (cs : List Char) : List (List Char) := cut (· == sep) cs

/-- The words of a text: the pieces between blanks, empty ones left out. -/
def words (cs : List Char) : List (List Char) := (cut isBlank cs).filter (!·.isEmpty)

/-- A text without the blanks at its ends. -/
def strip (s : String) : String := String.ofList (trim isBlank s.toList)

/-- A text without the blanks at its end. -/
def stripRight (s : String) : String := String.ofList (trimRight isBlank s.toList)

/-- The lines of a text: the pieces between line feeds. -/
def lines (s : String) : List String := (cutOn '\n' s.toList).map String.ofList

/-- Texts joined with a line feed between each two. -/
def unlines (ls : List String) : String := "\n".intercalate ls

end Outline

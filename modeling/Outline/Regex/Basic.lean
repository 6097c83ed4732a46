import Outline.Text.Blank
import Outline.Text.Digit
import Outline.Text.Letter
import Outline.Text.Word

/-!
# Regular expressions

The tree of a pattern, the properties of characters that it can ask for, and the number of
characters that a part of it can match.

* `Regex.Node`: one part of a pattern;
* `Regex.Flags`: the switches that a pattern or a part of it is read with;
* `Regex.Node.width`: the least and the greatest number of characters that a part matches;
* `Regex.Error`: why a text is no pattern.
-/

namespace Outline.Regex

/-- The switches of a pattern: letters match in either case, `^` and `$` also hold at line ends, a
dot matches line feeds, blanks and comments are left out, classes know ASCII only. -/
structure Flags where
  ignoreCase : Bool := false
  multiLine : Bool := false
  dotAll : Bool := false
  verbose : Bool := false
  ascii : Bool := false
  template : Bool := false

/-- The switches after turning some on and some off, each given by its letter. -/
def Flags.change (f : Flags) (on off : List Char) : Flags :=
  let set (old : Bool) (c : Char) : Bool := (old || on.contains c) && !off.contains c
  { ignoreCase := set f.ignoreCase 'i'
    multiLine := set f.multiLine 'm'
    dotAll := set f.dotAll 's'
    verbose := set f.verbose 'x'
    ascii := if on.contains 'a' then true else if on.contains 'u' then false else f.ascii
    template := set f.template 't' }

/-- Classes of characters that have a letter of their own. -/
inductive Category where
  | digit
  | blank
  | word
deriving DecidableEq

/-- Membership in a class. -/
def Category.holds (ascii : Bool) (k : Category) (c : Char) : Bool :=
  match k with
  | .digit => if ascii then isAsciiDigit c else isDigit c
  | .blank =>
    if ascii then (9 ≤ c.toNat && c.toNat ≤ 13) || c == ' ' else isBlank c
  | .word => if ascii then isAsciiAlnum c || c == '_' else isWordChar c

/-- One member of a bracketed set. -/
inductive SetItem where
  | char (n : Nat)
  | range (lo hi : Nat)
  | category (k : Category) (negated : Bool)

/-- Places in a text. -/
inductive Anchor where
  | lineStart
  | lineEnd
  | textStart
  | textEnd
  | wordEdge
  | noWordEdge

/-- How a repetition chooses the number of its turns. -/
inductive Greed where
  | greedy
  | lazy
  | possessive
deriving DecidableEq

/-- One part of a pattern. A part that is a list is matched from left to right. A look-behind
carries its width. -/
inductive Node where
  | char (n : Nat) (negated : Bool)
  | any
  | set (items : List SetItem) (negated : Bool)
  | anchor (a : Anchor)
  | branch (options : List (List Node))
  | group (index : Option Nat) (on off : List Char) (body : List Node)
  | atomic (body : List Node)
  | turns (greed : Greed) (least : Nat) (most : Option Nat) (body : List Node)
  | look (behind : Option Nat) (negated : Bool) (body : List Node)
  | again (group : Nat)
  | given (group : Nat) (yes : List Node) (no : Option (List Node))

/-- Why a text is no pattern: a fault at a place, a number of turns too long to be read or too large
to count, or switches that exclude each other. -/
inductive Error where
  | malformed (what : String) (position : Option Nat)
  | tooManyDigits (count : Nat)
  | tooManyTurns
  | clash

/-- Numbers of turns from here on count as too large. -/
def turnLimit : Nat := 4294967295

/-- No part is wider than this. -/
def widthLimit : Nat := Nat.pow 2 64

/-! ## Widths -/

mutual

/-- The least and the greatest number of characters that a part matches, given those of the
groups closed so far. -/
def Node.width (groups : List (Option (Nat × Nat))) : Node → Nat × Nat
  | .char _ _ => (1, 1)
  | .any => (1, 1)
  | .set _ _ => (1, 1)
  | .anchor _ => (0, 0)
  | .branch options => branchWidth groups options
  | .group _ _ _ body => seqWidth groups body
  | .atomic body => seqWidth groups body
  | .turns _ least most body =>
    let w := seqWidth groups body
    (w.1 * least, match most with
      | some n => w.2 * n
      | none => if w.2 = 0 then 0 else widthLimit)
  | .look _ _ _ => (0, 0)
  | .again g => ((groups[g - 1]?).join).getD (0, 0)
  | .given _ yes no =>
    let a := seqWidth groups yes
    match no with
    | none => (0, a.2)
    | some body =>
      let b := seqWidth groups body
      (min a.1 b.1, max a.2 b.2)

/-- The width of parts in a row. -/
def seqWidth (groups : List (Option (Nat × Nat))) : List Node → Nat × Nat
  | [] => (0, 0)
  | n :: ns =>
    let a := n.width groups
    let b := seqWidth groups ns
    (min (a.1 + b.1) widthLimit, min (a.2 + b.2) widthLimit)

/-- The width of a choice. -/
def branchWidth (groups : List (Option (Nat × Nat))) : List (List Node) → Nat × Nat
  | [] => (widthLimit, 0)
  | o :: os =>
    let a := seqWidth groups o
    let b := branchWidth groups os
    (min a.1 b.1, max a.2 b.2)

end

/-! ## Messages -/

/-- The words for a pattern error. The place is also given by line and column when the pattern has
more than one line. -/
def Error.message (pattern : String) : Error → String
  | .malformed what none => what
  | .malformed what (some p) =>
    let cs := pattern.toList
    let before := cs.take p
    let line := before.count '\n' + 1
    let column := (before.reverse.takeWhile (· != '\n')).length + 1
    what ++ " at position " ++ toString p ++
      (if cs.contains '\n' then
        " (line " ++ toString line ++ ", column " ++ toString column ++ ")"
      else "")
  | .tooManyDigits count => tooManyDigitsWords (some count)
  | .tooManyTurns => "the repetition number is too large"
  | .clash => "ASCII and UNICODE flags are incompatible"

end Outline.Regex

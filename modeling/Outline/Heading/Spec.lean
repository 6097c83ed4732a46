import Outline.Document.Basic
import Outline.Expr.Eval
import Outline.Path

/-!
# Specifications of headings

A heading is compared in its written form, `## Usage`, with a text or a pattern, or an expression is
evaluated for it.

* `HeadingSpec`: the three kinds;
* `Heading.written`: the written form;
* `anchored`: a pattern that has to match from the start of a text to its end;
* `HeadingSpec.judge`: whether a heading satisfies a specification;
* `HeadingSpec.accepts`: the same where faults count as no.
-/

namespace Outline

/-- What a heading has to be. -/
inductive HeadingSpec where
  /-- The written form is this text. -/
  | literal (text : String)
  /-- The whole written form matches this pattern. -/
  | pattern (text : String)
  /-- The expression, written like this, is true. -/
  | expr (source : String) (expression : Expression)

/-- A specification as messages show it. -/
def HeadingSpec.display : HeadingSpec → String
  | .literal text => text
  | .pattern text => text
  | .expr source _ => source

/-- A heading as it is written in one line. -/
def writtenHeading (level : Nat) (text : String) : String :=
  String.ofList (List.replicate level '#' ++ ' ' :: text.toList)

/-- A heading as it is written in one line. -/
def Heading.written (h : Heading) : String := writtenHeading h.level h.text

/-- A pattern with `^` before it and `$` behind it, where they are missing. -/
def anchoredChars (cs : List Char) : List Char :=
  let cs := if cs.head? == some '^' then cs else '^' :: cs
  if cs.getLast? == some '$' then cs else cs ++ ['$']

/-- A pattern with `^` before it and `$` behind it, where they are missing. -/
def anchored (pattern : String) : String := String.ofList (anchoredChars pattern.toList)

/-- A text without its first and its last character. -/
def withoutEnds (text : String) : String := String.ofList (text.toList.drop 1).dropLast

/-- Whether a text is matched by an anchored pattern, given what became of the pattern; a malformed
one is compared as it is written. -/
def matchesAnchored (anchored : String) (compiled : Option Regex.Pattern) (text : String) : Bool :=
  match compiled with
  | some p => p.matchesAll text
  | none => text == withoutEnds anchored

/-- Whether an expression is true of a heading of the document with the given path. Without a file
name it is not. -/
def judgeExpression (e : Expression) (path : String) (level : Nat) (text : String) :
    Except Fault Bool :=
  let name := fileStem path
  if name.isEmpty then .ok false else e.accepts name text level

/-- Whether a heading of the document with the given path satisfies a specification. -/
def HeadingSpec.judge (path : String) (h : Heading) : HeadingSpec → Except Fault Bool
  | .literal text => .ok (h.written == strip text)
  | .pattern text => do
    return matchesAnchored (anchored text) (← usablePattern (anchored text)) h.written
  | .expr _ e => judgeExpression e path h.level h.text

/-- Whether a heading satisfies a specification; where that cannot be found out, it does not. -/
def HeadingSpec.accepts (path : String) (spec : HeadingSpec) (h : Heading) : Bool :=
  match spec.judge path h with
  | .ok b => b
  | .error _ => false

end Outline

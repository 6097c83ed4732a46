import Outline.Document.Slug
import Outline.Expr.Read
import Outline.Regex.Match
import Outline.Text.Find

/-!
# Values of expressions

* `Builtin.apply`: the functions of the language; arguments count as their texts;
* `Expr.eval`: the value of an expression, given the values of the variables;
* `Expression.accepts`: whether the value is exactly true.

Numbers are added, all else is joined as text. Conjunction and disjunction look at their right
operand only if the left one does not decide, and count every value but `true` as false.
-/

namespace Outline

/-! ## Functions -/

/-- What remains of a pattern that cannot be used: a fault, or nothing for a malformed one. -/
def Regex.Error.fault? : Regex.Error → Option Fault
  | .malformed _ _ => none
  | .tooManyDigits count => some (.tooManyDigits (some count))
  | .tooManyTurns => some .outOfRange
  | .clash => some .clash

/-- A pattern ready for matching; nothing if it is malformed. -/
def usablePattern (text : String) : Except Fault (Option Regex.Pattern) :=
  match Regex.compile text with
  | .ok p => .ok (some p)
  | .error e => match e.fault? with
    | some f => .error f
    | none => .ok none

/-- Whether a text has a match of a pattern in it; a malformed pattern has none. -/
def matchesIn (s pattern : String) : Except Fault Bool := do
  match ← usablePattern pattern with
  | some p => return p.occursIn s
  | none => return false

/-- A text without a match of a pattern at its start. -/
def dropMatchAtStart (s pattern : String) : Except Fault String := do
  match ← usablePattern pattern with
  | none => return s
  | some p => match p.matchStart s.toList with
    | some n => return String.ofList (s.toList.drop n)
    | none => return s

/-- A text without the first match of a pattern that reaches to its end. -/
def dropMatchAtEnd (s pattern : String) : Except Fault String := do
  match ← usablePattern ("(?:" ++ pattern ++ ")$") with
  | none => return s
  | some p => match p.search s.toList with
    | some (a, b) => return String.ofList (s.toList.take a ++ s.toList.drop b)
    | none => return s

/-- An ASCII capital letter. -/
def isCapital (c : Char) : Bool := 65 ≤ c.toNat && c.toNat ≤ 90

/-- An ASCII small letter. -/
def isSmall (c : Char) : Bool := 97 ≤ c.toNat && c.toNat ≤ 122

/-- Puts a hyphen before each capital, except at the start, that has a small letter beside it. -/
def hyphenate : (before : Option Char) → List Char → List Char
  | _, [] => []
  | before, c :: cs =>
    let cutsHere := match before with
      | none => false
      | some b => isCapital c && (isSmall b || (cs.head?.map isSmall).getD false)
    (if cutsHere then ['-', c] else [c]) ++ hyphenate (some c) cs

/-- A name in capitals and small letters as words with hyphens between them. -/
def kebab (s : String) : String := String.ofList (lowerChars (hyphenate none s.toList))

/-- The value of a function at texts; nothing if their number is wrong. -/
def Builtin.applyTexts (f : Builtin) (args : List String) : Except Fault Value :=
  match f, args with
  | .slug, [s] => .ok (.str (Outline.slug s))
  | .kebab, [s] => .ok (.str (Outline.kebab s))
  | .lower, [s] => .ok (.str (Outline.lower s))
  | .upper, [s] => .ok (.str (Outline.upper s))
  | .trim, [s] => .ok (.str (strip s))
  | .hasPrefix, [s, p] => .ok (.bool (Text.startsWith p.toList s.toList))
  | .hasSuffix, [s, p] => .ok (.bool (Text.endsWith p.toList s.toList))
  | .contains, [s, p] => .ok (.bool (Text.contains s.toList p.toList))
  | .match_, [s, p] => (matchesIn s p).map .bool
  | .replace, [s, old, new] =>
    .ok (.str (String.ofList (Text.replaceAll s.toList old.toList new.toList)))
  | .trimPrefix, [s, p] => (dropMatchAtStart s p).map .str
  | .trimSuffix, [s, p] => (dropMatchAtEnd s p).map .str
  | _, _ => .error .wrongKind

/-- The value of a function at values, which count as their texts. -/
def Builtin.apply (f : Builtin) (args : List Value) : Except Fault Value := do
  if args.length ≠ f.arity then throw .wrongKind
  f.applyTexts (← args.mapM Value.text?)

/-! ## Trees -/

/-- The value of a constant. -/
def Literal.value : Literal → Value
  | .nat n => .int n
  | .decimal digits places => .float (floatOfDecimal digits (-places))
  | .text s => .str s
  | .truth b => .bool b

/-- Whether a value is exactly true. -/
def Value.isTrue : Value → Bool
  | .bool b => b
  | _ => false

/-- The floating-point number nearest to a whole one. -/
def floatOfInt (n : Int) : Except Fault Float :=
  match floatOfInt? n with
  | some f => .ok f
  | none => .error .outOfRange

/-- The sum of numbers, and the texts of other values joined. -/
def addValues (a b : Value) : Except Fault Value :=
  match a, b with
  | .int m, .int n => .ok (.int (m + n))
  | .int m, .float y => do return .float ((← floatOfInt m) + y)
  | .float x, .int n => do return .float (x + (← floatOfInt n))
  | .float x, .float y => .ok (.float (x + y))
  | _, _ => do return .str ((← a.text?) ++ (← b.text?))

mutual

/-- The value of an expression. -/
def Expr.eval (env : Variable → Value) : Expr → Except Fault Value
  | .lit l => .ok l.value
  | .var v => .ok (env v)
  | .call f args => do f.apply (← evalAll env args)
  | .not e => do return .bool !(← e.eval env).isTrue
  | .binary .and a b => do
    if (← a.eval env).isTrue then return .bool (← b.eval env).isTrue else return .bool false
  | .binary .or a b => do
    if (← a.eval env).isTrue then return .bool true else return .bool (← b.eval env).isTrue
  | .binary .eq a b => do
    let x ← a.eval env
    let y ← b.eval env
    return .bool (x.same y)
  | .binary .ne a b => do
    let x ← a.eval env
    let y ← b.eval env
    return .bool !(x.same y)
  | .binary .plus a b => do
    let x ← a.eval env
    let y ← b.eval env
    addValues x y

/-- The values of expressions, from left to right. -/
def evalAll (env : Variable → Value) : List Expr → Except Fault (List Value)
  | [] => .ok []
  | e :: es => do
    let v ← e.eval env
    let vs ← evalAll env es
    return v :: vs

end

/-- Whether an expression is true of a heading: its text, its level and the name of its file. -/
def Expression.accepts (e : Expression) (filename heading : String) (level : Nat) :
    Except Fault Bool := do
  let env : Variable → Value
    | .filename => .str filename
    | .heading => .str heading
    | .level => .int level
  return (← e.tree.eval env).isTrue

end Outline

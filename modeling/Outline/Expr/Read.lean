import Outline.Expr.Token
import Outline.Fault

/-!
# Reading expressions

Tokens are read by levels of precedence: disjunction, conjunction, negation, comparison, sum and
operand, each built from the next. Disjunction, conjunction and sum group to the left; a comparison
stands alone.

* `Level`: the levels;
* `readLevel`: reads a tree at a level, with the tokens that are left;
* `Expression`, `Expression.compile`: an expression with its source;
* `ExprError.message`: the words for what is wrong with a text.
-/

namespace Outline

/-- What is missing where a text stops being an expression. -/
inductive Expected where
  | expression
  | value
  | close
  | nothing
deriving DecidableEq

/-- Why a text is no expression. -/
inductive ExprError where
  | token (e : TokenError)
  | expected (what : Expected) (found : Token)
  | unknownVariable (name : String)
  | unknownFunction (name : String)
  | arity (f : Builtin) (got : Nat)
  | notText (kind : String)
deriving DecidableEq

/-- A constant as it is shown in messages. -/
def Literal.shown : Literal → String
  | .nat n => toString n
  | .decimal digits places => floatText (floatOfDecimal digits (-places))
  | .text s => Outline.shown s
  | .truth b => if b then "True" else "False"

/-- A token as it is shown in messages. -/
def Lexeme.shown : Lexeme → String
  | .literal l => l.shown
  | .name s => Outline.shown s
  | .sign s => Outline.shown s.text
  | .stop => "end of expression"

/-- The words for what is missing. -/
def Expected.text : Expected → String
  | .expression => "expected an expression"
  | .value => "expected a value"
  | .close => "expected " ++ Outline.shown ")"
  | .nothing => "unexpected trailing input"

/-- The words for an error in a source text. -/
def ExprError.message (source : String) : ExprError → String
  | .token (.unterminated p) => "Unterminated string at position " ++ toString p ++ ": " ++ source
  | .token (.unexpected c p) =>
    "Unexpected character " ++ shown (String.ofList [c]) ++ " at position " ++ toString p ++ ": " ++
      source
  | .token (.tooManyDigits n) => ((Fault.tooManyDigits (some n)).message?).getD ""
  | .expected what found =>
    "Invalid expression " ++ shown source ++ ": " ++ what.text ++ " at position " ++
      toString found.place ++ ", found " ++ found.lexeme.shown
  | .unknownVariable name =>
    "Unknown variable " ++ shown name ++ " in " ++ shown source ++ ". Available variables: " ++
      ", ".intercalate (Variable.all.map (·.name))
  | .unknownFunction name =>
    "Unknown function " ++ shown name ++ " in " ++ shown source ++ ". Available functions: " ++
      ", ".intercalate (Builtin.all.map (·.name))
  | .arity f got =>
    "Function " ++ shown f.name ++ " takes " ++ toString f.arity ++ " argument(s), got " ++
      toString got ++ " in " ++ shown source
  | .notText kind => "Expression must be a string, got " ++ kind

/-! ## Levels -/

/-- The levels of precedence, the loosest first. -/
inductive Level where
  | or
  | and
  | not
  | comparison
  | sum
  | operand
deriving DecidableEq

/-- The next tighter level. -/
def Level.next : Level → Level
  | .or => .and
  | .and => .not
  | .not => .comparison
  | .comparison => .sum
  | .sum => .operand
  | .operand => .operand

/-- The operator whose sign repeats at a level. -/
def Level.operator? : Level → Option (Sign × Operator)
  | .or => some (.or, .or)
  | .and => some (.and, .and)
  | .sum => some (.plus, .plus)
  | _ => none

/-- The end token that stands for a missing one. -/
def Token.missing : Token := ⟨.stop, [], 0⟩

/-- The token at the front. -/
def frontToken (ts : List Token) : Token := ts.headD .missing

/-- The tokens after a sign, if it stands at the front. -/
def afterSign? (s : Sign) : List Token → Option (List Token)
  | t :: ts => if t.lexeme = .sign s then some ts else none
  | [] => none

mutual

/-- Reads a tree at a level. -/
def readLevel : (fuel : Nat) → Level → List Token → Except ExprError (Expr × List Token)
  | 0, _, ts => .error (.expected .value (frontToken ts))
  | fuel + 1, .operand, ts => readOperand fuel ts
  | fuel + 1, .not, ts =>
    match afterSign? .not ts with
    | some rest => do
      let (e, rest) ← readLevel fuel .not rest
      return (.not e, rest)
    | none => readLevel fuel .comparison ts
  | fuel + 1, .comparison, ts => do
    let (a, ts) ← readLevel fuel .sum ts
    match afterSign? .eq ts, afterSign? .ne ts with
    | some rest, _ =>
      let (b, rest) ← readLevel fuel .sum rest
      return (.binary .eq a b, rest)
    | none, some rest =>
      let (b, rest) ← readLevel fuel .sum rest
      return (.binary .ne a b, rest)
    | none, none => return (a, ts)
  | fuel + 1, level, ts => do
    let (a, ts) ← readLevel fuel level.next ts
    readMore fuel level a ts

/-- Reads the further operands of an operator that groups to the left. -/
def readMore : (fuel : Nat) → Level → Expr → List Token → Except ExprError (Expr × List Token)
  | 0, _, _, ts => .error (.expected .value (frontToken ts))
  | fuel + 1, level, a, ts =>
    match level.operator? with
    | none => .ok (a, ts)
    | some (s, o) =>
      match afterSign? s ts with
      | none => .ok (a, ts)
      | some rest => do
        let (b, rest) ← readLevel fuel level.next rest
        readMore fuel level (.binary o a b) rest

/-- Reads an operand: a constant, a variable, a call, or an expression in brackets. -/
def readOperand : (fuel : Nat) → List Token → Except ExprError (Expr × List Token)
  | 0, ts => .error (.expected .value (frontToken ts))
  | _, [] => .error (.expected .value .missing)
  | fuel + 1, t :: ts =>
    match t.lexeme with
    | .literal l => .ok (.lit l, ts)
    | .name name =>
      match afterSign? .open_ ts with
      | some rest =>
        match Builtin.ofName? name with
        | none => .error (.unknownFunction name)
        | some f => do
          let (args, rest) ← readArguments fuel rest
          if args.length = f.arity then return (.call f args, rest)
          else throw (.arity f args.length)
      | none =>
        match Variable.ofName? name with
        | none => .error (.unknownVariable name)
        | some v => .ok (.var v, ts)
    | .sign .open_ => do
      let (e, rest) ← readLevel fuel .or ts
      match afterSign? .close rest with
      | some rest => return (e, rest)
      | none => throw (.expected .close (frontToken rest))
    | _ => .error (.expected .value t)

/-- Reads the arguments of a call and the bracket behind them. -/
def readArguments : (fuel : Nat) → List Token → Except ExprError (List Expr × List Token)
  | 0, ts => .error (.expected .value (frontToken ts))
  | fuel + 1, ts =>
    match afterSign? .close ts with
    | some rest => .ok ([], rest)
    | none => do
      let (a, rest) ← readLevel fuel .or ts
      readFurther fuel [a] rest

/-- Reads the arguments after the first, each behind a comma. -/
def readFurther : (fuel : Nat) → List Expr → List Token → Except ExprError (List Expr × List Token)
  | 0, _, ts => .error (.expected .value (frontToken ts))
  | fuel + 1, acc, ts =>
    match afterSign? .comma ts with
    | some rest => do
      let (a, rest) ← readLevel fuel .or rest
      readFurther fuel (acc ++ [a]) rest
    | none =>
      match afterSign? .close ts with
      | some rest => .ok (acc, rest)
      | none => .error (.expected .close (frontToken ts))

end

/-- Enough steps to read any number of tokens: each token is passed by at most eight of them. -/
def readingFuel (ts : List Token) : Nat := 8 * ts.length + 8

/-- Reads a whole expression from its tokens. -/
def readTokens (ts : List Token) : Except ExprError Expr := do
  if (frontToken ts).lexeme = .stop then throw (.expected .expression (frontToken ts))
  let (e, rest) ← readLevel (readingFuel ts) .or ts
  if (frontToken rest).lexeme = .stop then return e
  else throw (.expected .nothing (frontToken rest))

/-- An expression with the text that it was read from, without blanks at its ends. -/
structure Expression where
  source : String
  tree : Expr

namespace Expression

/-- Reads the characters of an expression. -/
def read (cs : List Char) : Except ExprError Expr :=
  match tokenize cs with
  | .error e => .error (.token e)
  | .ok ts => readTokens ts

/-- Reads an expression; blanks at the ends of the text do not count. -/
def compile (text : String) : Except ExprError Expression := do
  let source := strip text
  return ⟨source, ← read source.toList⟩

/-- Expressions are equal when their texts are. -/
instance : BEq Expression := ⟨fun a b => a.source == b.source⟩

end Expression

end Outline

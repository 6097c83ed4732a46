import Outline.Value.Text

/-!
# Heading expressions

Boolean expressions over the text and the level of a heading and the name of its file.

* `Expr`: the tree of an expression;
* `Literal`, `Variable`, `Builtin`, `Operator`: its leaves and nodes;
* `Builtin.arity`: how many arguments a function takes;
* `SyntaxError`: why a text is no expression.
-/

namespace Outline

/-- A constant. A decimal is kept as written: its digits, and how many of them stand after the
point. -/
inductive Literal where
  | nat (n : Nat)
  | decimal (digits places : Nat)
  | text (s : String)
  | truth (b : Bool)
deriving DecidableEq

/-- The names that stand for something outside of the expression. -/
inductive Variable where
  | filename
  | heading
  | level
deriving DecidableEq

/-- The functions of the language. -/
inductive Builtin where
  | slug
  | kebab
  | lower
  | upper
  | trim
  | hasPrefix
  | hasSuffix
  | contains
  | match_
  | replace
  | trimPrefix
  | trimSuffix
deriving DecidableEq

/-- The operators between two operands. -/
inductive Operator where
  | or
  | and
  | eq
  | ne
  | plus
deriving DecidableEq

/-- The tree of an expression. -/
inductive Expr where
  | lit (l : Literal)
  | var (v : Variable)
  | call (f : Builtin) (args : List Expr)
  | not (e : Expr)
  | binary (o : Operator) (left right : Expr)

namespace Variable

/-- All variables, in the order in which messages list them. -/
def all : List Variable := [.filename, .heading, .level]

/-- The name of a variable. -/
def name : Variable → String
  | .filename => "filename"
  | .heading => "heading"
  | .level => "level"

/-- The variable with a name. -/
def ofName? (s : String) : Option Variable := all.find? (·.name == s)

end Variable

namespace Builtin

/-- All functions, in the order in which messages list them. -/
def all : List Builtin :=
  [.slug, .kebab, .lower, .upper, .trim, .hasPrefix, .hasSuffix, .contains, .match_, .replace,
    .trimPrefix, .trimSuffix]

/-- The name of a function. -/
def name : Builtin → String
  | .slug => "slug"
  | .kebab => "kebab"
  | .lower => "lower"
  | .upper => "upper"
  | .trim => "trim"
  | .hasPrefix => "hasPrefix"
  | .hasSuffix => "hasSuffix"
  | .contains => "contains"
  | .match_ => "match"
  | .replace => "replace"
  | .trimPrefix => "trimPrefix"
  | .trimSuffix => "trimSuffix"

/-- The function with a name. -/
def ofName? (s : String) : Option Builtin := all.find? (·.name == s)

/-- The number of arguments. -/
def arity : Builtin → Nat
  | .slug | .kebab | .lower | .upper | .trim => 1
  | .replace => 3
  | _ => 2

end Builtin

/-- The sign of an operator. -/
def Operator.sign : Operator → String
  | .or => "||"
  | .and => "&&"
  | .eq => "=="
  | .ne => "!="
  | .plus => "+"

end Outline

import Outline.Expr.Basic
import Outline.Text.Blank
import Outline.Text.Digit
import Outline.Text.Word

/-!
# Tokens of expressions

A text is cut from left to right into numbers, strings, names and signs; blanks between them are
left out. The longest number, string or name is taken.

* `Token`: what a token is, how it is written and where;
* `lexeme?`: the token at the front of a text;
* `tokenize`: all tokens of a text, with an end token behind them.
-/

namespace Outline

/-- Signs that are tokens. -/
inductive Sign where
  | eq
  | ne
  | and
  | or
  | not
  | plus
  | open_
  | close
  | comma
deriving DecidableEq

/-- How a sign is written in messages. -/
def Sign.text : Sign → String
  | .eq => "=="
  | .ne => "!="
  | .and => "&&"
  | .or => "||"
  | .not => "!"
  | .plus => "+"
  | .open_ => "("
  | .close => ")"
  | .comma => ","

/-- What a token is. -/
inductive Lexeme where
  | literal (l : Literal)
  | name (s : String)
  | sign (s : Sign)
  | stop
deriving DecidableEq

/-- A token, the characters that it is written with, and its place. -/
structure Token where
  lexeme : Lexeme
  written : List Char
  place : Nat
deriving DecidableEq

/-- Why a text cannot be cut into tokens. -/
inductive TokenError where
  | unterminated (place : Nat)
  | unexpected (c : Char) (place : Nat)
  | tooManyDigits (count : Nat)
deriving DecidableEq

/-! ## Strings -/

/-- The inside of a string up to its closing quote, and what follows. A backslash is taken together
with the character after it, which may not be a line feed. -/
def stringBody (quote : Char) : List Char → Option (List Char × List Char)
  | [] => none
  | c :: cs =>
    if c == quote then some ([], cs)
    else if c == '\\' then
      match cs with
      | [] => none
      | d :: ds =>
        if d == '\n' then none else (stringBody quote ds).map fun r => (c :: d :: r.1, r.2)
    else (stringBody quote cs).map fun r => (c :: r.1, r.2)

/-- What the inside of a string stands for. A backslash before a character without a meaning of its
own is kept. -/
def unescape : List Char → List Char
  | [] => []
  | c :: cs =>
    if c == '\\' then
      match cs with
      | [] => [c]
      | d :: ds =>
        (match d with
          | 'n' => ['\n']
          | 't' => ['\t']
          | '\\' => ['\\']
          | '"' => ['"']
          | '\'' => ['\'']
          | _ => ['\\', d]) ++ unescape ds
    else c :: unescape cs

/-! ## Cutting -/

/-- A character that can begin a name. -/
def beginsName (c : Char) : Bool := isAsciiLetter c || c == '_'

/-- A character that can continue a name. -/
def continuesName (c : Char) : Bool := isAsciiAlnum c || c == '_'

/-- What a name stands for: some are signs or truth values. -/
def lexemeOfName (s : String) : Lexeme :=
  if s == "and" then .sign .and
  else if s == "or" then .sign .or
  else if s == "not" then .sign .not
  else if s == "true" then .literal (.truth true)
  else if s == "false" then .literal (.truth false)
  else .name s

/-- The sign at the front of a text, and its length. -/
def sign? : List Char → Option (Sign × Nat)
  | '=' :: '=' :: _ => some (.eq, 2)
  | '!' :: '=' :: _ => some (.ne, 2)
  | '&' :: '&' :: _ => some (.and, 2)
  | '|' :: '|' :: _ => some (.or, 2)
  | '!' :: _ => some (.not, 1)
  | '+' :: _ => some (.plus, 1)
  | '(' :: _ => some (.open_, 1)
  | ')' :: _ => some (.close, 1)
  | ',' :: _ => some (.comma, 1)
  | _ => none

/-- The number at the front of a text that begins with a digit, and its length. A point belongs to
it only before a digit. -/
def number (cs : List Char) : Literal × Nat :=
  let whole := cs.takeWhile isDigit
  match cs.dropWhile isDigit with
  | '.' :: rest =>
    let fraction := rest.takeWhile isDigit
    if fraction.isEmpty then (.nat (natOfDigits whole), whole.length)
    else
      (.decimal (natOfDigits (whole ++ fraction)) fraction.length,
        whole.length + 1 + fraction.length)
  | _ => (.nat (natOfDigits whole), whole.length)

/-- The token at the front of a text, and its length. -/
def lexeme? (cs : List Char) : Option (Lexeme × Nat) :=
  match cs with
  | [] => none
  | c :: rest =>
    if isDigit c then
      let (l, n) := number cs
      some (.literal l, n)
    else if c == '"' || c == '\'' then
      (stringBody c rest).map fun r =>
        (.literal (.text (String.ofList (unescape r.1))), r.1.length + 2)
    else if beginsName c then
      let name := cs.takeWhile continuesName
      some (lexemeOfName (String.ofList name), name.length)
    else (sign? cs).map fun s => (.sign s.1, s.2)

/-- A whole number with too many digits cannot be read. -/
def tooLong (l : Lexeme) (n : Nat) : Bool :=
  match l with
  | .literal (.nat _) => maxDigits < n
  | _ => false

/-- The tokens of the text from a place on; `fuel` is at least the length of the text. -/
def tokensFrom : (fuel place : Nat) → List Char → Except TokenError (List Token)
  | _, place, [] => .ok [⟨.stop, [], place⟩]
  | 0, place, _ => .ok [⟨.stop, [], place⟩]
  | fuel + 1, place, c :: cs =>
    if isBlank c then tokensFrom fuel (place + 1) cs
    else match lexeme? (c :: cs) with
      | none =>
        if c == '"' || c == '\'' then .error (.unterminated place) else .error (.unexpected c place)
      | some (l, n) =>
        if tooLong l n then .error (.tooManyDigits n)
        else (tokensFrom fuel (place + n) ((c :: cs).drop n)).map
          (⟨l, (c :: cs).take n, place⟩ :: ·)

/-- The tokens of a text. -/
def tokenize (cs : List Char) : Except TokenError (List Token) := tokensFrom cs.length 0 cs

end Outline

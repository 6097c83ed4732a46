import Outline.Text.Digit
import Outline.Text.Find

/-!
# Arguments

A command line holds options, which start with a hyphen, and operands. A long option may be cut short
as long as it stays the only one, and its text may follow an equals sign; short options may be written
in a row, and the text of the last one directly behind it. Behind two hyphens all is an operand.

* `Setting`, `Operands`, `Grammar`: what a command understands;
* `Mark`, `Grammar.mark`: what a single argument is;
* `Parsed`, `Grammar.parse`: what the arguments say;
* `Stop`: a request for help, or arguments that are not understood.
-/

namespace Outline.Command

/-- What options are about. -/
inductive Setting where
  | help
  | verbose
  | schema
  | format
  | output
deriving DecidableEq

/-- Whether an option has a text. -/
def Setting.hasText : Setting → Bool
  | .help | .verbose => false
  | .schema | .format | .output => true

/-- The formats of reports. -/
def formatNames : List String := ["text", "json"]

/-- Whether an option may have a text. -/
def Setting.admits (text : String) : Setting → Bool
  | .format => formatNames.contains text
  | _ => true

/-- How many operands there are. A command takes all arguments behind its name. -/
inductive Operands where
  | none
  | one
  | optional
  | many
  | command
deriving DecidableEq

/-- What is understood: the names of options, and the operands. -/
structure Grammar where
  options : List (String × Setting)
  operands : Operands

/-- Why arguments are not carried out. -/
inductive Stop where
  | help
  | usage
deriving DecidableEq

/-- The code that is left behind. -/
def Stop.code : Stop → Nat
  | .help => 0
  | .usage => 2

/-! ## Single arguments -/

/-- An option as it is used: its name, what it is about, if that is known, and the text that comes
with it, with or without an equals sign before it. -/
structure OptionUse where
  name : List Char
  setting : Option Setting
  text : Option (List Char) := none
  equals : Bool := false

/-- What an argument is. -/
inductive Mark where
  | operand
  | separator
  | option (use : OptionUse)

namespace Mark

def isOption : Mark → Bool
  | .option _ => true
  | _ => false

def isOperand : Mark → Bool
  | .operand => true
  | _ => false

def isSeparator : Mark → Bool
  | .separator => true
  | _ => false

end Mark

/-- Whether digits, at least one of them, follow. -/
def areDigits (cs : List Char) : Bool := !cs.isEmpty && cs.all isDigit

/-- Whether a text is a hyphen and a number, with a line break at its end or without. -/
def isNegativeNumber (cs : List Char) : Bool :=
  match cs with
  | '-' :: cs =>
    let cs := if cs.getLast? == some '\n' then cs.dropLast else cs
    areDigits cs ||
      match cs.dropWhile isDigit with
      | '.' :: digits => areDigits digits
      | _ => false
  | _ => false

namespace Grammar

variable (g : Grammar)

/-- What an option with just this name is about. -/
def setting? (name : List Char) : Option Setting := g.options.lookup (String.ofList name)

/-- The options that an argument may mean where it has more than a name, or less. -/
def candidates (cs : List Char) : List OptionUse :=
  if cs.take 2 = ['-', '-'] then
    let name := cs.takeWhile (· != '=')
    let text := (cs.dropWhile (· != '=')).tail?
    (g.options.filter fun o => Text.startsWith name o.1.toList).map fun o =>
      ⟨o.1.toList, some o.2, text, text.isSome⟩
  else
    (g.options.filter fun o => o.1.toList = cs.take 2).map fun o =>
      ⟨o.1.toList, some o.2, some (cs.drop 2), false⟩

/-- What an argument is that is not just the name of an option. -/
def markOther (cs : List Char) : Except Stop Mark :=
  match g.candidates cs with
  | [use] => .ok (.option use)
  | _ :: _ => .error .usage
  | [] =>
    if isNegativeNumber cs || cs.contains ' ' then .ok .operand
    else .ok (.option ⟨cs, none, none, false⟩)

/-- What an argument is. -/
def mark (cs : List Char) : Except Stop Mark :=
  if cs.head? != some '-' then .ok .operand
  else
    match g.setting? cs with
    | some s => .ok (.option ⟨cs, some s, none, false⟩)
    | none =>
      if cs.length = 1 then .ok .operand
      else
        let name := cs.takeWhile (· != '=')
        match g.setting? name, (cs.dropWhile (· != '=')).tail? with
        | some s, some text => .ok (.option ⟨name, some s, some text, true⟩)
        | _, _ => g.markOther cs

/-- What each of some arguments is. Behind two hyphens all are operands. -/
def markAll : List String → Except Stop (List (String × Mark))
  | [] => .ok []
  | "--" :: rest => .ok (("--", .separator) :: rest.map fun a => (a, .operand))
  | a :: rest => do
    let m ← g.mark a.toList
    return (a, m) :: (← markAll rest)

/-! ## Options -/

/-- What an option says: its setting with its text, for itself and those behind it in the same
argument; how many arguments that takes; and whether something is left over. -/
structure Use where
  settings : List (Setting × String)
  taken : Nat := 0
  leftOver : Bool := false

/-- What an option with a text of its own says. -/
def useText (s : Setting) (short equals : Bool) : List Char → Except Stop Use
  | [] => if s.hasText then .ok { settings := [(s, "")] } else .error .usage
  | c :: cs =>
    if s.hasText then .ok { settings := [(s, String.ofList (c :: cs))] }
    else if !short || equals || c == '-' then .error .usage
    else .ok { settings := [(s, "")], leftOver := true }

/-- What a row of short options says, of which the first is known. -/
def useRow (next : Option String) (s : Setting) (equals : Bool) :
    List Char → Except Stop Use
  | [] => useText s true equals []
  | c :: cs =>
    match s.hasText || equals || c == '-', g.setting? ['-', c] with
    | true, _ | false, none => useText s true equals (c :: cs)
    | false, some s' => do
      let rest ← match cs with
        | [] => useNext s' next
        | '=' :: text => useRow next s' true text
        | cs => useRow next s' false cs
      return { rest with settings := (s, "") :: rest.settings }
where
  /-- What an option without a text of its own says. -/
  useNext (s : Setting) (next : Option String) : Except Stop Use :=
    if !s.hasText then .ok { settings := [(s, "")] }
    else match next with
      | some text => .ok { settings := [(s, text)], taken := 1 }
      | none => .error .usage

/-- What an option says, given the operand that follows it, if one does. -/
def use (next : Option String) (o : OptionUse) : Except Stop Use :=
  match o.setting, o.text with
  | none, _ => .ok { settings := [], leftOver := true }
  | some s, none => useRow.useNext s next
  | some s, some text =>
    if o.name.take 2 = ['-', '-'] then useText s false o.equals text
    else g.useRow next s o.equals text

/-- Carries out settings in a row: help is given at once, and a text that is not admitted is refused. -/
def settle : List (Setting × String) → Except Stop Unit
  | [] => .ok ()
  | (.help, _) :: _ => .error .help
  | (s, text) :: rest => if s.admits text then settle rest else .error .usage

/-! ## All arguments -/

/-- What arguments say: settings, the operands, once they were taken, and whether something is left
over. -/
structure Parsed where
  settings : List (Setting × String) := []
  operands : Option (List String) := none
  leftOver : Bool := false

/-- How many arguments the operands take from the front, if they can be taken there. -/
def Operands.count (o : Operands) (marks : List Mark) : Option Nat :=
  let before := (marks.takeWhile Mark.isSeparator).length
  match o, marks.drop before with
  | .none, _ => Option.none
  | .one, .operand :: rest | .optional, .operand :: rest =>
    some (before + 1 + (rest.takeWhile Mark.isSeparator).length)
  | .many, .operand :: rest => some (before + 1 + (rest.takeWhile (!·.isOption)).length)
  | .command, .operand :: rest => some (before + 1 + rest.length)
  | .optional, _ => some before
  | _, _ => Option.none

/-- The operands among arguments that were taken for them. -/
def Operands.values (o : Operands) (arguments : List String) : List String :=
  if o = .command then arguments else arguments.erase "--"

/-- Takes operands from the front, unless that was done before. -/
def takeOperands (items : List (String × Mark)) (p : Parsed) : Option (Parsed × Nat) :=
  match p.operands, Operands.count g.operands (items.map (·.2)) with
  | none, some n =>
    some ({ p with operands := some (Operands.values g.operands ((items.take n).map (·.1))) }, n)
  | _, _ => none

/-- Goes through arguments. -/
def parseItems (items : List (String × Mark)) (p : Parsed) : Except Stop Parsed :=
  if !items.any (·.2.isOption) then
    match g.takeOperands items p with
    | some (p, n) => .ok { p with leftOver := p.leftOver || n < items.length }
    | none => .ok { p with leftOver := p.leftOver || !items.isEmpty }
  else
    match items with
    | [] => .ok p
    | (_, .option o) :: rest => do
      let next := match rest with
        | (text, .operand) :: _ => some text
        | _ => none
      let u ← g.use next o
      settle u.settings
      parseItems (rest.drop u.taken)
        { p with
          settings := p.settings ++ u.settings
          leftOver := p.leftOver || u.leftOver }
    | item :: rest =>
      match g.takeOperands (item :: rest) p with
      | some (p, n) => parseItems (rest.drop (n - 1)) p
      | none => parseItems rest { p with leftOver := true }
termination_by items.length
decreasing_by
  all_goals
    simp only [List.length_drop, List.length_cons]
    omega

/-- What arguments say. Operands that have to be there are missed. -/
def parse (arguments : List String) : Except Stop Parsed := do
  let p ← g.parseItems (← g.markAll arguments) {}
  match g.operands, p.operands with
  | .one, none | .many, none | .command, none => throw .usage
  | _, _ => return p

/-- The text that was last given for an option, unless it is empty. -/
def Parsed.last? (p : Parsed) (s : Setting) : Option String :=
  match (p.settings.filter (·.1 = s)).getLast? with
  | some (_, text) => if text.isEmpty then none else some text
  | none => none

end Grammar

end Outline.Command

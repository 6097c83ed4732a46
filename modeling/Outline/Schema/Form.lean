import Outline.Fault

/-!
# Forms

A form says what values are well-formed. Where a value is not, each flaw is told with its place.

* `Form`: the forms; the recursion through `elements` lets forms nest without bound;
* `Flaw`: a flaw and the way to it from the root;
* `Value.flaws`: the flaws of a value, given the form of an element;
* `flawMessages`: the flaws in the order of their places, as messages.
-/

namespace Outline

/-- What values are well-formed. -/
inductive Form where
  /-- A text of at least so many characters, one of the choices if there are any. -/
  | text (least : Nat) (choices : List String)
  /-- A truth value. -/
  | truth
  /-- A whole number within bounds. -/
  | whole (least : Nat) (most : Option Nat)
  /-- A list of at least so many values of any kind. -/
  | values (least : Nat)
  /-- A list of values of one form. -/
  | list (item : Form)
  /-- A mapping with members of the given forms, some of them required. -/
  | record (members : List (String × Form)) (required : List String)
  /-- A value of one of the forms. -/
  | oneOf (options : List Form)
  /-- A list of elements. -/
  | elements

/-- Something wrong with a part of a value: the way to it, and the words. -/
structure Flaw where
  path : List String
  text : String
deriving DecidableEq

/-- The flaws of a value; a value that cannot be shown is a fault. -/
abbrev Flaws := Except Fault (List Flaw)

namespace Flaws

/-- No flaws. -/
def none : Flaws := .ok []

/-- One flaw at the value itself. -/
def one (text : String) : Flaws := .ok [⟨[], text⟩]

/-- A flaw that shows the value. -/
def showing (v : Value) (words : String) : Flaws :=
  if v.writable then one (v.shown ++ words) else .error (.tooManyDigits .none)

/-- The flaws of two checks. -/
def and (a b : Flaws) : Flaws := do
  let x ← a
  let y ← b
  return x ++ y

/-- The flaws of checks in a row. -/
def all : List Flaws → Flaws
  | [] => none
  | a :: as => a.and (all as)

/-- The flaws of a part, seen from the whole. -/
def below (step : String) (a : Flaws) : Flaws :=
  a.map fun flaws => flaws.map fun f => { f with path := step :: f.path }

end Flaws

/-- The words for a value of the wrong kind. -/
def notOfType (v : Value) (type : String) : Flaws := .showing v (" is not of type '" ++ type ++ "'")

/-- The number of a value that counts as a number; truth values do not. -/
def formNumber? : Value → Option (Int ⊕ Float)
  | .int n => some (.inl n)
  | .float f => some (.inr f)
  | _ => none

/-- Whether a number is below a bound. -/
def isBelow (x : Int ⊕ Float) (bound : Nat) : Bool :=
  match x with
  | .inl n => n < bound
  | .inr f => f < Float.ofNat bound

/-- Whether a number is above a bound. -/
def isAbove (x : Int ⊕ Float) (bound : Nat) : Bool :=
  match x with
  | .inl n => bound < n
  | .inr f => Float.ofNat bound < f

/-- Whether a number is whole. -/
def isWhole : Int ⊕ Float → Bool
  | .inl _ => true
  | .inr f => (wholeInt? f).isSome

/-- Checks a text against its least length. -/
def checkLength (v : Value) (length least : Nat) : Flaws :=
  if length < least then
    .showing v (if least = 1 then " should be non-empty" else " is too short")
  else .none

/-- Checks a value against choices, if there are any. -/
def checkChoices (v : Value) (choices : List String) : Flaws :=
  let isChosen := match v with
    | .str s => choices.contains s
    | _ => false
  if choices.isEmpty || isChosen then .none
  else .showing v (" is not one of [" ++ ", ".intercalate (choices.map Outline.shown) ++ "]")

/-- Checks a text. -/
def checkText (v : Value) (least : Nat) (choices : List String) : Flaws :=
  let (kind, length) : Flaws × Flaws := match v with
    | .str s => (.none, checkLength v s.length least)
    | _ => (notOfType v "string", .none)
  (kind.and length).and (checkChoices v choices)

/-- Checks a truth value. -/
def checkTruth (v : Value) : Flaws :=
  match v with
  | .bool _ => .none
  | _ => notOfType v "boolean"

/-- Checks a whole number. -/
def checkWhole (v : Value) (least : Nat) (most : Option Nat) : Flaws :=
  match formNumber? v with
  | none => notOfType v "integer"
  | some x =>
    let kind := if isWhole x then .none else notOfType v "integer"
    let low :=
      if isBelow x least then .showing v (" is less than the minimum of " ++ toString least)
      else .none
    let high := match most with
      | some m =>
        if isAbove x m then .showing v (" is greater than the maximum of " ++ toString m)
        else .none
      | none => .none
    (kind.and low).and high

/-- Checks that a value is a list. -/
def checkList (v : Value) : Flaws :=
  match v with
  | .list _ => .none
  | _ => notOfType v "array"

/-- Checks that a value is a list of at least so many values. -/
def checkValues (v : Value) (least : Nat) : Flaws :=
  match v with
  | .list items => checkLength v items.length least
  | _ => notOfType v "array"

/-- Whether a value is one of some names. -/
def isNamed (names : List String) (key : Value) : Bool :=
  match key with
  | .str s => names.contains s
  | _ => false

/-- Checks that all keys are among the allowed names. -/
def checkNames (keys : List Value) (names : List String) : Flaws :=
  let extras := keys.filter fun k => !isNamed names k
  if extras.isEmpty then .none
  else if extras.all Value.writable then
    let shown := (extras.mergeSort fun a b => a.text ≤ b.text).map Value.shown
    .one ("Additional properties are not allowed (" ++ ", ".intercalate shown ++
      (if extras.length = 1 then " was" else " were") ++ " unexpected)")
  else .error (.tooManyDigits none)

/-- Checks that all required names are among the keys. -/
def checkRequired (keys : List Value) (required : List String) : Flaws :=
  .all (required.map fun name =>
    if keys.any (isNamed [name]) then .none else .one (Outline.shown name ++ " is a required property"))

/-- Steps on the way to the items of a list. -/
def belowItems (place : Nat) : List Flaws → Flaws
  | [] => .none
  | a :: as => (a.below (toString place)).and (belowItems (place + 1) as)

/-- A part of a value as the function that tells its flaws for each form. -/
abbrev Judged := Form → Flaws

section Judge

variable (element : Form) (v : Value) (items : List Judged) (entries : List (Value × Judged))

mutual

/-- The flaws of a value with the given parts. -/
def Form.judge : Form → Flaws
  | .text least choices => checkText v least choices
  | .truth => checkTruth v
  | .whole least most => checkWhole v least most
  | .values least => checkValues v least
  | .list item => (checkList v).and (belowItems 0 (items.map fun judged => judged item))
  | .elements => (checkList v).and (belowItems 0 (items.map fun judged => judged element))
  | .record members required =>
    match v with
    | .map _ =>
      ((judgeMembers members).and (checkRequired (entries.map (·.1)) required)).and
        (checkNames (entries.map (·.1)) (members.map (·.1)))
    | _ => notOfType v "object"
  | .oneOf options => do
    if ← judgeOptions options then return []
    Flaws.showing v " is not valid under any of the given schemas"

/-- The flaws of the members of a mapping, in the order of the form. -/
def judgeMembers : List (String × Form) → Flaws
  | [] => .none
  | (name, form) :: rest =>
    let here : Flaws := match entries.find? (fun e => isNamed [name] e.1) with
      | some (_, judged) => (judged form).below name
      | none => .none
    here.and (judgeMembers rest)

/-- Whether a value has no flaw under one of the forms. -/
def judgeOptions : List Form → Except Fault Bool
  | [] => .ok false
  | form :: rest => do
    if (← form.judge).isEmpty then return true
    judgeOptions rest

end

end Judge

mutual

/-- The flaws of a value, where elements have the given form. -/
def Value.flaws (element : Form) : Value → Judged
  | .list items => Form.judge element (.list items) (itemFlaws element items) []
  | .map entries => Form.judge element (.map entries) [] (entryFlaws element entries)
  | v => Form.judge element v [] []

/-- The items of a list, ready to be judged. -/
def itemFlaws (element : Form) : List Value → List Judged
  | [] => []
  | v :: vs => Value.flaws element v :: itemFlaws element vs

/-- The entries of a mapping, ready to be judged. -/
def entryFlaws (element : Form) : List (Value × Value) → List (Value × Judged)
  | [] => []
  | (k, v) :: es => (k, Value.flaws element v) :: entryFlaws element es

end

/-- A flaw as a message: the place, then the words. -/
def Flaw.message (f : Flaw) : String :=
  let place := "/".intercalate f.path
  (if place.isEmpty then "<root>" else place) ++ ": " ++ f.text

/-- Flaws as messages, in the order of their places. -/
def flawMessages (flaws : List Flaw) : List String :=
  (flaws.mergeSort fun a b => !decide (b.path < a.path)).map Flaw.message

end Outline

import Outline.Yaml.Cursor

/-!
# What plain scalars stand for

A scalar without quotes and without a tag is null, a truth value, a number, a date or a moment if it
is written like one, and else a text.

* `Tag`: the kinds of nodes;
* `plainTag`: the kind that a plain scalar suggests;
* `stamp?`: the parts of a date or a moment as it is written.
-/

namespace Outline.Yaml

/-- The kind of a node. -/
inductive Tag where
  | null
  | bool
  | int
  | float
  | binary
  | timestamp
  | omap
  | pairs
  | set
  | str
  | seq
  | map
  /-- The key that merges entries of other mappings. -/
  | merge
  /-- The key that holds the value of a mapping used as a scalar. -/
  | value
  | other
deriving DecidableEq

/-- The kind that a full tag names. -/
def Tag.ofText (text : String) : Tag :=
  match text with
  | "tag:yaml.org,2002:null" => .null
  | "tag:yaml.org,2002:bool" => .bool
  | "tag:yaml.org,2002:int" => .int
  | "tag:yaml.org,2002:float" => .float
  | "tag:yaml.org,2002:binary" => .binary
  | "tag:yaml.org,2002:timestamp" => .timestamp
  | "tag:yaml.org,2002:omap" => .omap
  | "tag:yaml.org,2002:pairs" => .pairs
  | "tag:yaml.org,2002:set" => .set
  | "tag:yaml.org,2002:str" => .str
  | "tag:yaml.org,2002:seq" => .seq
  | "tag:yaml.org,2002:map" => .map
  | "tag:yaml.org,2002:merge" => .merge
  | "tag:yaml.org,2002:value" => .value
  | _ => .other

/-! ## Words -/

/-- The words for truth values, in the spellings that count without a tag. -/
def truthWords : List String :=
  ["yes", "Yes", "YES", "no", "No", "NO", "true", "True", "TRUE", "false", "False", "FALSE",
    "on", "On", "ON", "off", "Off", "OFF"]

/-- The words for null. -/
def nullWords : List String := ["~", "null", "Null", "NULL", ""]

/-! ## Numbers -/

/-- A text without the sign in front of it. -/
def unsigned : List Char → List Char
  | c :: cs => if c == '+' || c == '-' then cs else c :: cs
  | [] => []

/-- A digit or an underscore. -/
def isSpacedDigit (c : Char) : Bool := isAsciiDigit c || c == '_'

/-- A signed exponent, or nothing. -/
def isExponent : List Char → Bool
  | [] => true
  | e :: s :: ds =>
    (e == 'e' || e == 'E') && (s == '+' || s == '-') && !ds.isEmpty && ds.all isAsciiDigit
  | _ => false

/-- What follows a colon and a number below 60. -/
def afterSixtieth : List Char → Option (List Char)
  | ':' :: a :: cs =>
    if !isAsciiDigit a then none
    else match cs with
      | b :: tail =>
        if isAsciiDigit b then (if '5' < a then none else some tail) else some cs
      | [] => some cs
  | _ => none

/-- What follows numbers below 60, each behind a colon; there may be none. -/
def afterSixtieths : (fuel : Nat) → List Char → List Char
  | 0, cs => cs
  | fuel + 1, cs => match afterSixtieth cs with
    | some tail => afterSixtieths fuel tail
    | none => cs

/-- Digits and underscores, a point, more of them, and perhaps an exponent. -/
def isPointed (cs : List Char) : Bool :=
  (cs.head?.map isAsciiDigit).getD false &&
    match cs.dropWhile isSpacedDigit with
    | '.' :: tail => isExponent (tail.dropWhile isSpacedDigit)
    | _ => false

/-- A point, digits, and perhaps an exponent. -/
def isFraction : List Char → Bool
  | '.' :: d :: tail => isAsciiDigit d && isExponent (tail.dropWhile isSpacedDigit)
  | _ => false

/-- A number in base 60 with a point. -/
def isSixtyPointed (cs : List Char) : Bool :=
  (cs.head?.map isAsciiDigit).getD false &&
    match afterSixtieth (cs.dropWhile isSpacedDigit) with
    | some tail =>
      match afterSixtieths tail.length tail with
      | '.' :: ds => ds.all isSpacedDigit
      | _ => false
    | none => false

/-- A floating-point number. -/
def isFloatText (cs : List Char) : Bool :=
  let u := unsigned cs
  isPointed u || isFraction cs || isSixtyPointed u ||
    [".inf", ".Inf", ".INF"].any (·.toList == u) || [".nan", ".NaN", ".NAN"].any (·.toList == cs)

/-- A digit of base 2 or an underscore. -/
def isBinaryDigit (c : Char) : Bool := c == '0' || c == '1' || c == '_'

/-- A digit of base 8 or an underscore. -/
def isOctalDigit (c : Char) : Bool := ('0' ≤ c && c ≤ '7') || c == '_'

/-- A whole number: in base 2, 8 or 16 by how it begins, else in base 10 or 60. -/
def isIntText (cs : List Char) : Bool :=
  match unsigned cs with
  | '0' :: 'b' :: ds => !ds.isEmpty && ds.all isBinaryDigit
  | '0' :: 'x' :: ds => !ds.isEmpty && ds.all fun c => isHexDigit c || c == '_'
  | '0' :: ds => ds.all isOctalDigit
  | d :: ds =>
    isAsciiDigit d &&
      (let tail := ds.dropWhile isSpacedDigit
      (afterSixtieths tail.length tail).isEmpty)
  | [] => false

/-! ## Dates and moments -/

/-- The distance from universal time as it is written. -/
structure ZoneText where
  negative : Bool
  hours : Nat
  minutes : Nat

/-- A time of day as it is written. -/
structure ClockText where
  hour : Nat
  minute : Nat
  second : Nat
  fraction : List Char
  zone : Option ZoneText

/-- A date as it is written, perhaps with a time of day. -/
structure Stamp where
  year : Nat
  month : Nat
  day : Nat
  /-- Month and day are written with two digits each. -/
  full : Bool
  clock : Option ClockText

/-- Exactly `n` digits, and what follows. -/
def digits? (n : Nat) (cs : List Char) : Option (List Char × List Char) :=
  let ds := cs.take n
  if ds.length == n && ds.all isAsciiDigit then some (ds, cs.drop n) else none

/-- One or two digits, and what follows. -/
def fewDigits? (cs : List Char) : Option (List Char × List Char) :=
  match digits? 2 cs with
  | some r => some r
  | none => digits? 1 cs

/-- A text without the given character in front; nothing if it is not there. -/
def after? (c : Char) : List Char → Option (List Char)
  | d :: cs => if d == c then some cs else none
  | [] => none

/-- The distance from universal time at the end of a moment: nothing is written if none is known. -/
def zone? (cs : List Char) : Option (Option ZoneText) :=
  if cs.isEmpty then some none
  else
    match cs.dropWhile fun c => c == ' ' || c == '\t' with
    | [] => none
    | 'Z' :: tail => if tail.isEmpty then some (some ⟨false, 0, 0⟩) else none
    | s :: tail => do
      if !(s == '+' || s == '-') then none
      let (h, tail) ← fewDigits? tail
      match tail with
      | [] => return some ⟨s == '-', natOfDigits h, 0⟩
      | ':' :: tail =>
        let (m, tail) ← digits? 2 tail
        if !tail.isEmpty then none
        return some ⟨s == '-', natOfDigits h, natOfDigits m⟩
      | _ => none

/-- A time of day behind a date. -/
def clock? (cs : List Char) : Option ClockText := do
  let tail ← match cs with
    | c :: tail =>
      if c == 'T' || c == 't' then some tail
      else if c == ' ' || c == '\t' then
        some (cs.dropWhile fun c => c == ' ' || c == '\t')
      else none
    | [] => none
  let (hour, tail) ← fewDigits? tail
  let (minute, tail) ← digits? 2 (← after? ':' tail)
  let (second, tail) ← digits? 2 (← after? ':' tail)
  let (fraction, tail) := match tail with
    | '.' :: tail => (tail.takeWhile isAsciiDigit, tail.dropWhile isAsciiDigit)
    | tail => ([], tail)
  let zone ← zone? tail
  return ⟨natOfDigits hour, natOfDigits minute, natOfDigits second, fraction, zone⟩

/-- The parts of a date or a moment. -/
def stamp? (cs : List Char) : Option Stamp := do
  let (year, tail) ← digits? 4 cs
  let (month, tail) ← fewDigits? (← after? '-' tail)
  let (day, tail) ← fewDigits? (← after? '-' tail)
  let full := month.length == 2 && day.length == 2
  let clock ← if tail.isEmpty then some none else (clock? tail).map some
  return ⟨natOfDigits year, natOfDigits month, natOfDigits day, full, clock⟩

/-- A date with all its digits, or a moment. -/
def isStampText (cs : List Char) : Bool :=
  match stamp? cs with
  | some s => s.full || s.clock.isSome
  | none => false

/-! ## Kinds -/

/-- The kind that a plain scalar suggests. A line feed at its end does not count. -/
def plainTag (text : List Char) : Tag :=
  let cs := if text.getLast? == some '\n' then text.dropLast else text
  let s := String.ofList cs
  if truthWords.contains s then .bool
  else if isFloatText cs then .float
  else if isIntText cs then .int
  else if cs == ['<', '<'] then .merge
  else if nullWords.contains s && (s != "" || text.isEmpty) then .null
  else if isStampText cs then .timestamp
  else if cs == ['='] then .value
  else if cs == ['!'] || cs == ['&'] || cs == ['*'] then .other
  else .str

end Outline.Yaml

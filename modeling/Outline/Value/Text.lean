import Outline.Value.Basic
import Outline.Text.Digit
import Outline.Text.Quoted

/-!
# Values as text

A value has two written forms. Alone, a text is written as it is; among other values it is quoted,
and so are dates and bytes spelled out.

* `Value.shown`: the form among other values;
* `Value.text`: the form of a value that stands alone;
* `Value.writable`: whether every whole number in it is short enough to be written.
-/

namespace Outline

/-- Whether a whole number is short enough to be written. -/
def writableInt (n : Int) : Bool := n.natAbs < Nat.pow 10 maxDigits

/-- Bytes between quotes: printable ASCII as it is, the rest by escapes. -/
def shownBytes (bs : List UInt8) : String :=
  let cs := bs.map fun b => Char.ofNat b.toNat
  let q := quoteFor cs
  let one (c : Char) : List Char :=
    if c == q || c == '\\' then ['\\', c]
    else if c == '\t' then ['\\', 't']
    else if c == '\n' then ['\\', 'n']
    else if c == '\r' then ['\\', 'r']
    else if 32 ≤ c.toNat && c.toNat ≤ 126 then [c]
    else '\\' :: 'x' :: hexDigits 2 c.toNat
  String.ofList ('b' :: q :: cs.flatMap one ++ [q])

/-- A date spelled out by its numbers. -/
def shownDate (d : Date) : String :=
  "datetime.date(" ++ ", ".intercalate ([d.year, d.month, d.day].map Nat.repr) ++ ")"

/-- A moment spelled out by its numbers; seconds and microseconds are left out at the end when
they are zero. -/
def shownMoment (t : Moment) : String :=
  let tail := if t.micro ≠ 0 then [t.second, t.micro] else if t.second ≠ 0 then [t.second] else []
  let numbers := [t.date.year, t.date.month, t.date.day, t.hour, t.minute] ++ tail
  let zone := match t.offset with
    | none => []
    | some o => ["tzinfo=datetime.timezone" ++
        (if o = 0 then ".utc" else "(" ++ durationText o ++ ")")]
  "datetime.datetime(" ++ ", ".intercalate (numbers.map Nat.repr ++ zone) ++ ")"

namespace Value

mutual

/-- A value as it is written among other values. -/
def shown : Value → String
  | .null => "None"
  | .bool b => if b then "True" else "False"
  | .int n => toString n
  | .float f => floatText f
  | .str s => Outline.shown s
  | .date d => shownDate d
  | .moment t => shownMoment t
  | .bytes bs => shownBytes bs
  | .list items => "[" ++ ", ".intercalate (shownItems items) ++ "]"
  | .pair a b => "(" ++ shown a ++ ", " ++ shown b ++ ")"
  | .set items =>
    match shownItems items with
    | [] => "set()"
    | texts => "\x7b" ++ ", ".intercalate texts ++ "\x7d"
  | .map entries => "\x7b" ++ ", ".intercalate (shownEntries entries) ++ "\x7d"

/-- The items of a sequence as they are written. -/
def shownItems : List Value → List String
  | [] => []
  | v :: vs => shown v :: shownItems vs

/-- The entries of a mapping as they are written. -/
def shownEntries : List (Value × Value) → List String
  | [] => []
  | (k, v) :: es => (shown k ++ ": " ++ shown v) :: shownEntries es

end

/-- A value as it is written alone. -/
def text : Value → String
  | .str s => s
  | .date d => d.text
  | .moment t => t.text
  | v => v.shown

mutual

/-- Whether every whole number in a value is short enough to be written. -/
def writable : Value → Bool
  | .int n => writableInt n
  | .list items => writableItems items
  | .pair a b => writable a && writable b
  | .set items => writableItems items
  | .map entries => writableEntries entries
  | _ => true

/-- The same for the items of a sequence. -/
def writableItems : List Value → Bool
  | [] => true
  | v :: vs => writable v && writableItems vs

/-- The same for the entries of a mapping. -/
def writableEntries : List (Value × Value) → Bool
  | [] => true
  | (k, v) :: es => writable k && writable v && writableEntries es

end

end Value

end Outline

/-!
# Dates and moments

Dates of the Gregorian calendar, years 1 to 9999, and moments of a day, with or without a distance
from universal time.

* `Date`, `Date.make`: a date, and the reason why three numbers are none;
* `Moment`, `Moment.make`: a date with a time of day, and perhaps an offset in minutes;
* `Moment.same`: equality of moments: by the instant if both have an offset;
* `Date.text`, `Moment.text`: the written forms `2024-01-15` and `2024-01-15 10:30:00+00:00`.
-/

namespace Outline

/-- Why numbers are no date or moment. -/
inductive CalendarError where
  | year (y : Nat)
  | month
  | day
  | hour
  | minute
  | second
  | offset (minutes : Int)
deriving DecidableEq, Repr

/-- A length of time in minutes as whole days, which may be negative, and the seconds left over. -/
def durationText (minutes : Int) : String :=
  let days := Int.fdiv minutes 1440
  let seconds := (Int.fmod minutes 1440) * 60
  let dayPart := if days = 0 then [] else ["days=" ++ toString days]
  let secondPart := if seconds = 0 then [] else ["seconds=" ++ toString seconds]
  let parts := dayPart ++ secondPart
  "datetime.timedelta(" ++ (if parts.isEmpty then "0" else ", ".intercalate parts) ++ ")"

/-- The words for a calendar error. -/
def CalendarError.message : CalendarError → String
  | .year y => "year " ++ toString y ++ " is out of range"
  | .month => "month must be in 1..12"
  | .day => "day is out of range for month"
  | .hour => "hour must be in 0..23"
  | .minute => "minute must be in 0..59"
  | .second => "second must be in 0..59"
  | .offset m => "offset must be a timedelta strictly between -timedelta(hours=24) and " ++
      "timedelta(hours=24), not " ++ durationText m

/-- Whether a year has a 29th of February. -/
def isLeapYear (y : Nat) : Bool := y % 4 == 0 && (y % 100 != 0 || y % 400 == 0)

/-- The number of days of a month. -/
def daysOfMonth (y m : Nat) : Nat :=
  if m = 2 then (if isLeapYear y then 29 else 28)
  else if m = 4 ∨ m = 6 ∨ m = 9 ∨ m = 11 then 30
  else 31

/-- A date. -/
structure Date where
  year : Nat
  month : Nat
  day : Nat
deriving DecidableEq, Repr

/-- The date with the given numbers. -/
def Date.make (y m d : Nat) : Except CalendarError Date :=
  if y < 1 ∨ 9999 < y then .error (.year y)
  else if m < 1 ∨ 12 < m then .error .month
  else if d < 1 ∨ daysOfMonth y m < d then .error .day
  else .ok ⟨y, m, d⟩

/-- The number of days before a date, from the first day of year 1. -/
def Date.ordinal (d : Date) : Nat :=
  let y := d.year - 1
  let months := (List.range (d.month - 1)).map fun i => daysOfMonth d.year (i + 1)
  y * 365 + y / 4 - y / 100 + y / 400 + months.foldl (· + ·) 0 + d.day

/-- A moment of a day. The offset is the distance from universal time in minutes. -/
structure Moment where
  date : Date
  hour : Nat
  minute : Nat
  second : Nat
  micro : Nat
  offset : Option Int
deriving DecidableEq, Repr

/-- The moment with the given numbers; the offset is looked at first. -/
def Moment.make (y m d hour minute second micro : Nat) (offset : Option Int) :
    Except CalendarError Moment := do
  match offset with
  | some o => if o ≤ -1440 ∨ 1440 ≤ o then throw (.offset o)
  | none => pure ()
  let date ← Date.make y m d
  if 23 < hour then throw .hour
  if 59 < minute then throw .minute
  if 59 < second then throw .second
  return ⟨date, hour, minute, second, micro, offset⟩

/-- Microseconds of a moment on its own clock. -/
def Moment.clock (t : Moment) : Int :=
  (((t.date.ordinal * 24 + t.hour) * 60 + t.minute) * 60 + t.second) * 1000000 + t.micro

/-- Equality of moments: of the instants if both have an offset, of the clocks if none has. -/
def Moment.same (a b : Moment) : Bool :=
  match a.offset, b.offset with
  | some x, some y => a.clock - x * 60000000 == b.clock - y * 60000000
  | none, none => a.clock == b.clock
  | _, _ => false

/-- A number with zeros before it up to the given width. -/
def padded (width n : Nat) : String :=
  let ds := (Nat.repr n).toList
  String.ofList (List.replicate (width - ds.length) '0' ++ ds)

/-- A date as `2024-01-15`. -/
def Date.text (d : Date) : String :=
  padded 4 d.year ++ "-" ++ padded 2 d.month ++ "-" ++ padded 2 d.day

/-- An offset as `+05:30`. -/
def offsetText (minutes : Int) : String :=
  (if minutes < 0 then "-" else "+") ++ padded 2 (minutes.natAbs / 60) ++ ":" ++
    padded 2 (minutes.natAbs % 60)

/-- A moment as `2024-01-15 10:30:00+00:00`. -/
def Moment.text (t : Moment) : String :=
  t.date.text ++ " " ++ padded 2 t.hour ++ ":" ++ padded 2 t.minute ++ ":" ++ padded 2 t.second ++
    (if t.micro = 0 then "" else "." ++ padded 6 t.micro) ++
    (match t.offset with | some o => offsetText o | none => "")

/-- Four ASCII digits, two and two with hyphens between them that name a date. -/
def isDateText (s : String) : Bool :=
  let digit (c : Char) : Bool := 48 ≤ c.toNat && c.toNat ≤ 57
  let number (ds : List Char) : Nat := ds.foldl (fun n c => 10 * n + (c.toNat - 48)) 0
  match s.toList with
  | [a, b, c, d, '-', e, f, '-', g, h] =>
    [a, b, c, d, e, f, g, h].all digit &&
      (match Date.make (number [a, b, c, d]) (number [e, f]) (number [g, h]) with
        | .ok _ => true
        | .error _ => false)
  | _ => false

end Outline

import Outline.Calendar
import Outline.Files.Basic
import Outline.Value.Text
import Outline.Regex.Basic

/-!
# Faults

What can stop a computation on user data for good: the data names a value that does not exist or
that is out of the range of what can be represented.

* `Fault`: the causes;
* `Fault.message`: the words for them.
-/

namespace Outline

/-- A cause that stops a computation. -/
inductive Fault where
  /-- A whole number with more digits than can be read, or written if their number is not known. -/
  | tooManyDigits (count : Option Nat)
  /-- Numbers that are no date. -/
  | calendar (e : CalendarError)
  /-- A text that writes no whole number in the given base. -/
  | notWhole (text : String) (base : Nat)
  /-- A text that writes no floating-point number. -/
  | notFloat (text : String)
  /-- An address whose host cannot be read. -/
  | address (why : String)
  /-- Switches of a pattern that exclude each other. -/
  | clash
  /-- A number beyond the range of a count or of floating point. -/
  | outOfRange
  /-- A value of the wrong kind. -/
  | wrongKind
  /-- A heading cannot be tested against a value of this kind. -/
  | notASpec (kind : String)
  /-- A word that is none of the words for truth values. -/
  | noSuchWord
  /-- A text too short to have the part that is asked for. -/
  | tooShort
  /-- A text that should write a moment and does not. -/
  | noMoment
  /-- A code beyond the last character. -/
  | noCharacter
  /-- A text that is no YAML. -/
  | notYaml
  /-- Bytes that are no text. -/
  | notText (e : Utf8.Error)
  /-- A path that cannot be used. -/
  | file (path : String) (e : FileError)
  /-- An address that no request can be sent to. -/
  | badRequest
deriving DecidableEq

/-- The words for a fault, where it has words of its own. -/
def Fault.message? : Fault → Option String
  | .tooManyDigits count => some (tooManyDigitsWords count)
  | .calendar e => some e.message
  | .notWhole text base =>
    some ("invalid literal for int() with base " ++ toString base ++ ": " ++ shown text)
  | .notFloat text => some ("could not convert string to float: " ++ shown text)
  | .address why => some why
  | .clash => some (Regex.Error.clash.message "")
  | .notASpec kind => some ("Unknown heading spec type: " ++ kind)
  | .notText e => some e.message
  | .file path e => some (e.message path)
  | .noCharacter => some "chr() arg not in range(0x110000)"
  | _ => none

/-- The text of a value that stands alone; a whole number in it may be too long to be written. -/
def Value.text? (v : Value) : Except Fault String :=
  if v.writable then .ok v.text else .error (.tooManyDigits none)

end Outline

import Outline.Text.Utf8
import Outline.Text.Word

/-!
# Percent signs in addresses

A byte of an address may be written as a percent sign and two hexadecimal digits.

* `encodeAddress`: an address in ASCII: what is not plain is written so, but sequences that are
  already written so stay;
* `decodeAddress`: an address as people read it: sequences that write characters without a meaning
  of their own are decoded;
* `decodePercent`: a text in which all of these sequences are decoded.
-/

namespace Outline

/-- The hexadecimal digit of a value below 16, a capital for those above 9. -/
def capitalHexDigit (n : Nat) : Char :=
  if n < 10 then Char.ofNat (48 + n) else Char.ofNat (55 + n)

/-- A byte as a percent sign and two digits. -/
def percentByte (n : Nat) : List Char := ['%', capitalHexDigit (n / 16), capitalHexDigit (n % 16)]

/-- A character that stays as it is in an encoded address. -/
def isPlainInAddress (c : Char) : Bool :=
  isAsciiAlnum c || ";/?:@&=+$,-_.!~*'()#".toList.contains c

/-- Two hexadecimal digits stand at the front. -/
def beginsWithTwoHexDigits : List Char → Bool
  | a :: b :: _ => isHexDigit a && isHexDigit b
  | _ => false

/-- An address in ASCII. -/
def encodeAddress : List Char → List Char
  | [] => []
  | c :: cs =>
    (if isPlainInAddress c || (c == '%' && beginsWithTwoHexDigits cs) then [c]
      else (Utf8.encode c).flatMap percentByte) ++ encodeAddress cs

/-- ASCII characters whose written byte is not decoded, since they have a meaning in addresses. -/
def staysEncoded (n : Nat) : Bool := ";/?:@&=+$,#%".toList.contains (Char.ofNat n)

/-- The bytes that percent signs write at the front of a text. -/
def leadingBytes : List Char → List Nat
  | '%' :: a :: b :: cs =>
    if isHexDigit a && isHexDigit b then hexValue [a, b] :: leadingBytes cs else []
  | _ => []

/-- The number of bytes that the first byte of a character announces. -/
def announcedWidth (n : Nat) : Nat :=
  if 0xC0 ≤ n && n < 0xE0 then 2
  else if 0xE0 ≤ n && n < 0xF0 then 3
  else if 0xF0 ≤ n && n < 0xF8 then 4
  else 1

/-- The character for bytes that write none. -/
def replacement : Char := '\uFFFD'

/-- The text that written bytes stand for. The first `skip` bytes belong to a character already
decoded. -/
def decodeBytes : (skip : Nat) → List Nat → List Char
  | _, [] => []
  | skip + 1, _ :: bs => decodeBytes skip bs
  | 0, b :: bs =>
    if b < 0x80 then
      (if staysEncoded b then percentByte b else [Char.ofNat b]) ++ decodeBytes 0 bs
    else
      let width := announcedWidth b
      let more := bs.take (width - 1)
      if width = 1 || more.length + 1 < width || !more.all Utf8.continues then
        replacement :: decodeBytes 0 bs
      else match Utf8.head b more with
        | .char code _ => Char.ofNat code :: decodeBytes (width - 1) bs
        | .fault _ _ => List.replicate width replacement ++ decodeBytes (width - 1) bs

/-- An address as people read it. The first `skip` characters belong to bytes already decoded. -/
def decodeAddressFrom : (skip : Nat) → List Char → List Char
  | _, [] => []
  | skip + 1, _ :: cs => decodeAddressFrom skip cs
  | 0, c :: cs =>
    match leadingBytes (c :: cs) with
    | [] => c :: decodeAddressFrom 0 cs
    | bytes => decodeBytes 0 bytes ++ decodeAddressFrom (3 * bytes.length - 1) cs

/-- An address as people read it. -/
def decodeAddress (cs : List Char) : List Char := decodeAddressFrom 0 cs

/-- The bytes of a text in which percent signs write bytes. The first `skip` characters belong to a
byte already read. -/
def writtenBytes : (skip : Nat) → List Char → List Nat
  | _, [] => []
  | skip + 1, _ :: cs => writtenBytes skip cs
  | 0, c :: cs =>
    if c == '%' && beginsWithTwoHexDigits cs then hexValue (cs.take 2) :: writtenBytes 2 cs
    else Utf8.encode c ++ writtenBytes 0 cs

/-- A text in which percent signs write bytes, as the text that these bytes write. -/
def decodePercent (cs : List Char) : List Char := Utf8.decodeAll 0 (writtenBytes 0 cs)

end Outline

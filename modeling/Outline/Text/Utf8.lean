/-!
# UTF-8

Characters as bytes, and bytes as characters. Each character has exactly one row of bytes, so long
forms and surrogates are refused.

* `Utf8.encode`: the bytes of a character;
* `Utf8.Head`: what stands at the front of some bytes: a character, or why there is none;
* `Utf8.decode`: the text that bytes write, or the place of the first fault;
* `Utf8.decodeAll`: the text that bytes write, with replacements for faults.
-/

namespace Outline.Utf8

/-- The bytes of a character. -/
def encode (c : Char) : List Nat :=
  let n := c.toNat
  if n < 0x80 then [n]
  else if n < 0x800 then [0xC0 + n / 64, 0x80 + n % 64]
  else if n < 0x10000 then [0xE0 + n / 4096, 0x80 + n / 64 % 64, 0x80 + n % 64]
  else [0xF0 + n / 262144, 0x80 + n / 4096 % 64, 0x80 + n / 64 % 64, 0x80 + n % 64]

/-- Why bytes do not write a character. -/
inductive Reason where
  | start
  | continuation
  | ending
deriving DecidableEq, Repr

/-- The front of some bytes: a character and the number of its bytes, or the number of bytes that
belong together and why they write none. -/
inductive Head where
  | char (code width : Nat)
  | fault (width : Nat) (why : Reason)
deriving DecidableEq, Repr

/-- A byte that continues a character. -/
def continues (n : Nat) : Bool := 0x80 ≤ n && n < 0xC0

/-- Reads the bytes behind the first one of a character; the second one lies between bounds. -/
def tail (lead width lo hi : Nat) (bytes : List Nat) : Head :=
  match bytes with
  | [] => .fault 1 .ending
  | b :: rest =>
    if !(lo ≤ b && b ≤ hi) then .fault 1 .continuation
    else
      let code := lead * 64 + b % 64
      if width = 2 then .char code 2
      else match rest with
        | [] => .fault 2 .ending
        | c :: rest =>
          if !continues c then .fault 2 .continuation
          else
            let code := code * 64 + c % 64
            if width = 3 then .char code 3
            else match rest with
              | [] => .fault 3 .ending
              | d :: _ =>
                if !continues d then .fault 3 .continuation else .char (code * 64 + d % 64) 4

/-- The front of bytes, of which there is at least the first. -/
def head (first : Nat) (bytes : List Nat) : Head :=
  if first < 0x80 then .char first 1
  else if first < 0xC2 then .fault 1 .start
  else if first < 0xE0 then tail (first - 0xC0) 2 0x80 0xBF bytes
  else if first < 0xF0 then
    tail (first - 0xE0) 3 (if first = 0xE0 then 0xA0 else 0x80)
      (if first = 0xED then 0x9F else 0xBF) bytes
  else if first < 0xF5 then
    tail (first - 0xF0) 4 (if first = 0xF0 then 0x90 else 0x80)
      (if first = 0xF4 then 0x8F else 0xBF) bytes
  else .fault 1 .start

/-- Bytes that write no text: the place and the number of the first ones that do not, and why. -/
structure Error where
  place : Nat
  bytes : List Nat
  why : Reason
deriving DecidableEq

/-- The text that bytes write. The first `skip` bytes belong to a character already read. -/
def decodeFrom (place : Nat) : (skip : Nat) → List Nat → Except Error (List Char)
  | _, [] => .ok []
  | skip + 1, _ :: bs => decodeFrom (place + 1) skip bs
  | 0, b :: bs =>
    match head b bs with
    | .char code width => (decodeFrom (place + 1) (width - 1) bs).map (Char.ofNat code :: ·)
    | .fault width why => .error ⟨place, (b :: bs).take width, why⟩

/-- The text that bytes write. -/
def decode (bytes : List Nat) : Except Error (List Char) := decodeFrom 0 0 bytes

/-- The text that bytes write, with a replacement for each row of bytes that write none. The first
`skip` bytes belong to a character already read. -/
def decodeAll : (skip : Nat) → List Nat → List Char
  | _, [] => []
  | skip + 1, _ :: bs => decodeAll skip bs
  | 0, b :: bs =>
    match head b bs with
    | .char code width => Char.ofNat code :: decodeAll (width - 1) bs
    | .fault width _ => '\uFFFD' :: decodeAll (width - 1) bs

end Outline.Utf8

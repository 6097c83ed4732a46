import Outline.Address.Percent
import Outline.Fault
import Outline.Text.Blank
import Outline.Text.Find
import Outline.Text.Letter

/-!
# Parts of addresses

The scheme and the host of an address, as the rules on links and on front matter look at them.

* `splitAddress`: the scheme and the authority of an address; a host in brackets has to be an
  address of the sixth version of the internet protocol, or of a later one;
* `hostOf`: the host of an authority.
-/

namespace Outline

/-- The scheme of an address in small letters, and its authority: what stands between the two
slashes and the path. -/
structure AddressParts where
  scheme : String
  authority : String
deriving DecidableEq

/-! ## Hosts in brackets -/

/-- A number of at most three digits up to 255, without zeros before it. -/
def isByteText (cs : List Char) : Bool :=
  cs.all isAsciiDigit && 0 < cs.length && cs.length ≤ 3 && (cs == ['0'] || cs.head? != some '0') &&
    natOfDigits cs ≤ 255

/-- An address of the fourth version: four numbers. -/
def isFourPart (cs : List Char) : Bool :=
  let parts := cutOn '.' cs
  parts.length == 4 && parts.all isByteText

/-- A group of an address of the sixth version: up to four hexadecimal digits. -/
def isHexGroup (cs : List Char) : Bool := 0 < cs.length && cs.length ≤ 4 && cs.all isHexDigit

/-- Groups of an address of the sixth version: eight of them, where a double colon stands for one or
more that are zero. -/
def areHexGroups (parts : List (List Char)) : Bool :=
  let inner := (parts.drop 1).dropLast
  match inner.countP List.isEmpty with
  | 0 => parts.length == 8 && parts.all isHexGroup
  | 1 =>
    let before := parts.take (1 + (inner.takeWhile (!·.isEmpty)).length)
    let after := parts.drop (before.length + 1)
    let trimmed (side : List (List Char)) : List (List Char) := if side == [[]] then [] else side
    let groups := trimmed before ++ trimmed after
    parts.length ≤ 9 && groups.length ≤ 7 && groups.all isHexGroup
  | _ => false

/-- An address of the sixth version, possibly with a zone behind a percent sign; its end may be an
address of the fourth version, which counts as two groups. -/
def isSixPart (cs : List Char) : Bool :=
  let (address, zone) := cs.span (· != '%')
  let zoneIsGood := match zone with
    | [] => true
    | _ :: name => !name.isEmpty && !name.contains '%'
  let parts := cutOn ':' address
  let tail := parts.getLastD []
  let parts? :=
    if tail.contains '.' then
      if isFourPart tail then some (parts.dropLast ++ [['0'], ['0']]) else none
    else some parts
  zoneIsGood && 3 ≤ parts.length && !cs.contains '/' &&
    match parts? with
    | some parts => areHexGroups parts
    | none => false

/-- An address of a later version: its number, a point, and the rest. -/
def isLaterVersion (cs : List Char) : Bool :=
  let number := (cs.drop 1).takeWhile isHexDigit
  match (cs.drop 1).drop number.length with
  | '.' :: rest => !number.isEmpty && !rest.isEmpty && !rest.contains '\n'
  | _ => false

/-- Checks a host that stands in brackets. -/
def checkBracketed (host : List Char) : Except Fault Unit :=
  if host.head? == some 'v' then
    if isLaterVersion host then .ok () else .error (.address "IPvFuture address is invalid")
  else if isFourPart host then .error (.address "An IPv4 address cannot be in brackets")
  else if isSixPart host then .ok ()
  else .error (.address (shown (String.ofList host) ++
    " does not appear to be an IPv4 or IPv6 address"))

/-! ## Authorities -/

/-- What stands before the first occurrence of a character and what stands behind it. -/
def splitFirst (sep : Char) (cs : List Char) : List Char × List Char :=
  (cs.takeWhile (· != sep), (cs.dropWhile (· != sep)).drop 1)

/-- What stands behind the last `@`. -/
def withoutUser (authority : List Char) : List Char :=
  (authority.reverse.takeWhile (· != '@')).reverse

/-- Checks the brackets of an authority. -/
def checkBrackets (authority : List Char) : Except Fault Unit :=
  let invalid : Except Fault Unit := .error (.address "Invalid IPv6 URL")
  match authority.contains '[', authority.contains ']' with
  | false, false => .ok ()
  | true, true =>
    let rest := withoutUser authority
    if rest.contains '[' then
      let (before, bracketed) := splitFirst '[' rest
      let (host, after) := splitFirst ']' bracketed
      if !before.isEmpty || (!after.isEmpty && after.head? != some ':') then invalid
      else checkBracketed host
    else checkBracketed (splitFirst ':' rest).1
  | _, _ => invalid

/-- A character whose compatibility form has a character that ends a host in it. -/
def hidesDelimiter (c : Char) : Bool :=
  [0x2047, 0x2048, 0x2049, 0x2100, 0x2101, 0x2105, 0x2106, 0x2A74, 0xFE13, 0xFE16, 0xFE55, 0xFE56,
    0xFE5F, 0xFE6B, 0xFF03, 0xFF0F, 0xFF1A, 0xFF1F, 0xFF20].contains c.toNat

/-- Checks the characters of an authority. -/
def checkDelimiters (authority : List Char) : Except Fault Unit :=
  if authority.any hidesDelimiter then
    .error (.address ("netloc '" ++ String.ofList authority ++
      "' contains invalid characters under NFKC normalization"))
  else .ok ()

/-- The host of an authority in small letters; the zone keeps its letters. -/
def hostOf (authority : String) : String :=
  let rest := withoutUser authority.toList
  let host :=
    if rest.contains '[' then (splitFirst ']' (splitFirst '[' rest).2).1
    else (splitFirst ':' rest).1
  let (name, zone) := host.span (· != '%')
  String.ofList (lowerChars name ++ zone)

/-! ## Addresses -/

/-- A character of a scheme. -/
def isSchemeChar (c : Char) : Bool := isAsciiAlnum c || c == '+' || c == '-' || c == '.'

/-- The scheme of an address, if it has one, and the rest. -/
def splitScheme (cs : List Char) : Option (List Char) × List Char :=
  let (scheme, rest) := cs.span (· != ':')
  match scheme, rest with
  | c :: _, _ :: rest =>
    if isAsciiLetter c && scheme.all isSchemeChar then (some scheme, rest) else (none, cs)
  | _, _ => (none, cs)

/-- An address without the controls and the spaces before it and the line breaks and tabs in it. -/
def cleanAddress (cs : List Char) : List Char :=
  (cs.dropWhile fun c => c.toNat ≤ 32).filter fun c => c != '\t' && c != '\n' && c != '\r'

/-- The scheme and the authority of an address. -/
def splitAddress (address : String) : Except Fault AddressParts := do
  let (scheme, rest) := splitScheme (cleanAddress address.toList)
  let scheme := String.ofList (lowerChars (scheme.getD []))
  match rest with
  | '/' :: '/' :: rest =>
    let authority := rest.takeWhile fun c => c != '/' && c != '?' && c != '#'
    checkBrackets authority
    checkDelimiters authority
    return ⟨scheme, String.ofList authority⟩
  | _ => return ⟨scheme, ""⟩

end Outline

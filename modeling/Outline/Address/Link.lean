import Outline.Address.Percent
import Outline.Address.Punycode
import Outline.Text.Blank
import Outline.Text.Letter

/-!
# Addresses of links

The address of a link in a document is brought into one form: the domain name in ASCII, and other
characters by their bytes. Addresses that could run code are refused.

* `LinkParts`: an address taken apart;
* `linkAddress`: the form of an address in a link;
* `shownAddress`: an address as the text of a link that is nothing but an address;
* `isSafeAddress`: whether a link may lead to an address.
-/

namespace Outline

/-- The parts of an address. The tail is the path, the query and the fragment. -/
structure LinkParts where
  protocol : List Char
  slashes : Bool
  user : List Char
  host : List Char
  port : List Char
  tail : List Char

namespace LinkParts

/-- The protocol at the front of an address with its colon, and what follows. -/
def splitProtocol (cs : List Char) : List Char × List Char :=
  let name := cs.takeWhile fun c => isAsciiAlnum c || c == '.' || c == '+' || c == '-'
  match cs.drop name.length with
  | ':' :: rest => if name.isEmpty then ([], cs) else (name ++ [':'], rest)
  | _ => ([], cs)

/-- Protocols whose addresses have a host only behind two slashes. -/
def needsSlashes (protocol : List Char) : Bool :=
  ["http:", "https:", "ftp:", "gopher:", "file:"].any (·.toList == protocol)

/-- A protocol whose addresses have no host. -/
def isHostless (protocol : List Char) : Bool := protocol == "javascript:".toList

/-- A character that ends a host. -/
def endsHost (c : Char) : Bool := "%/?;#'\x7b\x7d|\\^\x60<>\" \r\n\t".toList.contains c

/-- A character of a label of a host. -/
def isLabelChar (c : Char) : Bool := isAsciiAlnum c || c == '+' || c == '_' || c == '-'

/-- A label of a host, where characters beyond ASCII are not looked at. -/
def isLabel (cs : List Char) : Bool :=
  cs.length ≤ 63 && cs.all fun c => isLabelChar c || 127 < c.toNat

/-- The labels up to the first one that is none, cut off there, and what is cut off. -/
def validLabels : List (List Char) → List (List Char) × Option (List (List Char))
  | [] => ([], none)
  | l :: ls =>
    if isLabel l then
      let (valid, rest) := validLabels ls
      (l :: valid, rest)
    else
      let good := (l.take 63).takeWhile isLabelChar
      ([good], some (l.drop good.length :: ls))

/-- Labels with points between them. -/
def joinLabels (labels : List (List Char)) : List Char := ['.'].intercalate labels

/-- Splits the port off a host. -/
def splitPort (cs : List Char) : List Char × List Char :=
  let ds := trimRight (fun c => '0' ≤ c && c ≤ '9') cs
  if ds.getLast? == some ':' then (ds.dropLast, cs.drop ds.length) else (cs, [])

/-- Takes user, host and port off the front of an address. -/
def splitHost (protocol : List Char) (slashes : Bool) (cs : List Char) : LinkParts :=
  let reach := cs.takeWhile fun c => !(c == '/' || c == '?' || c == '#')
  let (user, cs) := match Text.findLast? ['@'] reach with
    | some i => (cs.take i, cs.drop (i + 1))
    | none => ([], cs)
  let run := cs.takeWhile fun c => !endsHost c
  let written := if run.getLast? == some ':' then run.dropLast else run
  let tail := cs.drop written.length
  let (host, port) := splitPort written
  if host.head? == some '[' && host.getLast? == some ']' then
    ⟨protocol, slashes, user, if 255 < host.length then [] else (host.drop 1).dropLast, port, tail⟩
  else
    let (valid, rest) := validLabels (cutOn '.' host)
    let host := joinLabels valid
    let tail := match rest with
      | some labels => joinLabels labels ++ tail
      | none => tail
    ⟨protocol, slashes, user, if 255 < host.length then [] else host, port, tail⟩

/-- The parts of an address. -/
def ofText (text : List Char) : LinkParts :=
  let (protocol, rest) := splitProtocol (trim isBlank text)
  let slashes := rest.take 2 == ['/', '/'] && !isHostless protocol
  let rest := if slashes then rest.drop 2 else rest
  if !isHostless protocol && (slashes || (!protocol.isEmpty && !needsSlashes protocol)) then
    splitHost protocol slashes rest
  else ⟨protocol, slashes, [], [], [], rest⟩

/-- An address made of its parts, each of which `f` may change; a host with colons in it stands in
brackets, which stay. -/
def textBy (f : List Char → List Char) (p : LinkParts) : List Char :=
  let front := p.protocol ++ (if p.slashes then ['/', '/'] else []) ++
    (if p.user.isEmpty then [] else p.user ++ ['@'])
  let back := (if p.port.isEmpty then [] else ':' :: p.port) ++ p.tail
  if p.host.contains ':' then f front ++ '[' :: f p.host ++ ']' :: f back
  else f (front ++ p.host ++ back)

/-- Whether the host is a domain name. -/
def hasDomain (p : LinkParts) : Bool :=
  !p.host.isEmpty &&
    (p.protocol.isEmpty || ["http:", "https:", "mailto:"].any (·.toList == p.protocol))

end LinkParts

/-- A character between two labels of a domain name. -/
def isLabelEnd (c : Char) : Bool := c == '.' || c == '\u3002' || c == '\uFF0E' || c == '\uFF61'

/-- A host with a function applied to each label of its domain name; nothing if it fails on one. -/
def mapLabels (f : List Char → Option (List Char)) (host : List Char) : Option (List Char) :=
  match cutOn '@' host with
  | user :: domain :: _ => do
    let labels ← (cut isLabelEnd domain).mapM f
    return user ++ '@' :: LinkParts.joinLabels labels
  | _ => do
    let labels ← (cut isLabelEnd host).mapM f
    return LinkParts.joinLabels labels

/-- A label in ASCII. -/
def asciiLabel (label : List Char) : List Char :=
  if label.any (126 < ·.toNat) then "xn--".toList ++ Punycode.encode label else label

/-- A label as people read it. -/
def shownLabel? (label : List Char) : Option (List Char) :=
  if Text.startsWith "xn--".toList label then Punycode.decode? (lowerChars (label.drop 4))
  else some label

/-- The form of an address in a link. -/
def linkAddress (text : List Char) : List Char :=
  let p := LinkParts.ofText text
  let host :=
    if p.hasDomain then (mapLabels (some ∘ asciiLabel) p.host).getD p.host else p.host
  { p with host := host }.textBy encodeAddress

/-- An address as the text of a link. -/
def shownAddress (text : List Char) : List Char :=
  let p := LinkParts.ofText text
  let host := if p.hasDomain then (mapLabels shownLabel? p.host).getD p.host else p.host
  { p with host := host }.textBy decodeAddress

/-- Whether a link may lead to an address: not to scripts and files, and to data only if it is an
image. -/
def isSafeAddress (address : List Char) : Bool :=
  let cs := lowerChars (trim isBlank address)
  let begins (s : String) : Bool := Text.startsWith s.toList cs
  !(["vbscript:", "javascript:", "file:", "data:"].any begins) ||
    ["data:image/gif;", "data:image/png;", "data:image/jpeg;", "data:image/webp;"].any begins

end Outline

import Outline.Address.Split
import Outline.Decimal.Read
import Outline.Path
import Outline.Regex.Match

/-!
# Addresses of pages

Addresses in the form in which they are requested, and the chains of redirects behind them.

* `WebAddress`, `readWebAddress`: the parts of an address in that form;
* `WebAddress.text`: the address again;
* `joinAddress`: an address seen from another one;
* `Web`, `fetchHead`: what the network answers, and what becomes of a request.
-/

namespace Outline

/-- The parts of an address; the host is empty for one that is seen from another address. -/
structure WebAddress where
  scheme : List Char
  user : List Char
  host : List Char
  port : Option Int
  path : List Char
  query : Option (List Char)
  fragment : Option (List Char)
deriving DecidableEq

/-! ## Characters -/

/-- A character of ASCII that is no control. -/
def isVisibleAscii (c : Char) : Bool := 32 ≤ c.toNat && c.toNat < 127

/-- A text with percent signs for the bytes of the characters that are not safe; what is written
with percent signs already stays. -/
def encodeUnless (safe : Char → Bool) : List Char → List Char
  | [] => []
  | '%' :: rest =>
    (if beginsWithTwoHexDigits rest then ['%'] else percentByte 37) ++ encodeUnless safe rest
  | c :: rest =>
    (if safe c then [c] else (Utf8.encode c).flatMap percentByte) ++ encodeUnless safe rest

/-- Whether a character of ASCII is no control and none of the given ones. -/
def isSafeBeside (others : String) (c : Char) : Bool :=
  isVisibleAscii c && !others.toList.contains c

/-- Safe in a fragment. -/
def safeInFragment : Char → Bool := isSafeBeside " \"<>\x60"

/-- Safe in a query. -/
def safeInQuery : Char → Bool := isSafeBeside " \"#<>"

/-- Safe in a path. -/
def safeInPath : Char → Bool := isSafeBeside " \"#<>?\x60\x7b\x7d"

/-- Safe in the name of a user. -/
def safeInUser (c : Char) : Bool := safeInPath c && !"/;=@[\\]^|".toList.contains c

/-- Safe in a host. -/
def safeInHost (c : Char) : Bool :=
  isAsciiAlnum c || "-._~!$&'()*+,;=\"\x60\x7b\x7d%|\\".toList.contains c

/-! ## Reading -/

/-- Whether a host looks like four numbers. -/
def looksLikeFourNumbers (host : List Char) : Bool :=
  match Regex.compile "^[0-9]+.[0-9]+.[0-9]+.[0-9]+$" with
  | .ok p => (p.matchStart host).isSome
  | .error _ => false

/-- A host in the form in which it is requested, or why it cannot be. -/
def requestHost (host : List Char) : Except String (List Char) :=
  if host.isEmpty then .ok []
  else if looksLikeFourNumbers host then
    if isFourPart host then .ok host
    else .error ("Invalid IPv4 address: " ++ shown (String.ofList host))
  else if host.head? == some '[' && host.getLast? == some ']' then
    let inner := (host.drop 1).dropLast
    if isSixPart inner then .ok inner
    else .error ("Invalid IPv6 address: " ++ shown (String.ofList host))
  else .ok (encodeUnless safeInHost (lowerChars host))

/-- The port that a scheme stands for. -/
def defaultPort (scheme : List Char) : Option Int :=
  if scheme == "http".toList then some 80
  else if scheme == "https".toList then some 443
  else if scheme == "ftp".toList then some 21
  else none

/-- The port that a text gives, unless it is the one that the scheme stands for. -/
def requestPort (scheme port : List Char) : Except String (Option Int) :=
  if port.isEmpty then .ok none
  else match wholeOfText? 10 port with
    | some n => .ok (if some n = defaultPort scheme then none else some n)
    | none => .error ("Invalid port: " ++ shown (String.ofList port))

/-- The steps of a path without dots; nothing is above the first one. -/
def withoutDots (path : List Char) : List Char :=
  let put (steps : List (List Char)) (step : List Char) : List (List Char) :=
    if step == sameStep then steps
    else if step != upStep then step :: steps
    else if steps == [[]] then steps
    else steps.drop 1
  let steps := pathSteps path
  if steps.any fun s => s == sameStep || s == upStep then joinSteps (steps.foldl put []).reverse
  else path

/-- The user, the host and the port of an authority. -/
def splitAuthority (authority : List Char) : List Char × List Char × List Char :=
  let rest := withoutUser authority
  let user := (authority.take (authority.length - rest.length)).dropLast
  let host :=
    if rest.head? == some '[' && rest.contains ']' then
      (rest.reverse.dropWhile (· != ']')).reverse
    else rest.takeWhile (· != ':')
  let port := rest.drop host.length
  (user, host, if port.head? == some ':' then port.drop 1 else port)

/-- The parts of an address in the form in which it is requested, or why it cannot be. -/
def readWebAddress (address : List Char) : Except String WebAddress := do
  if 65536 < address.length then throw "URL too long"
  let isHidden (c : Char) : Bool := c.toNat < 32 || c.toNat == 127
  match address.find? isHidden with
  | some c => throw ("Invalid non-printable ASCII character in URL, " ++
      shown (String.ofList [c]) ++ " at position " ++ toString (address.findIdx isHidden) ++ ".")
  | none => pure ()
  let (scheme, rest) := splitScheme address
  let scheme := lowerChars (scheme.getD [])
  let endsPath (c : Char) : Bool := c == '?' || c == '#'
  let (authority, rest) := match rest with
    | '/' :: '/' :: rest => rest.span fun c => c != '/' && !endsPath c
    | rest => ([], rest)
  let (path, rest) := rest.span (!endsPath ·)
  let (query, rest) := match rest with
    | '?' :: rest => (some (rest.takeWhile (· != '#')), rest.dropWhile (· != '#'))
    | rest => (none, rest)
  let fragment := match rest with
    | '#' :: rest => some rest
    | _ => none
  let (user, host, port) := splitAuthority authority
  let host ← requestHost host
  let port ← requestPort scheme port
  let hasAuthority := !user.isEmpty || !host.isEmpty || port.isSome
  if !hasAuthority && scheme.isEmpty then
    if path.take 2 == ['/', '/'] then
      throw "Relative URLs cannot have a path starting with '//'"
    if path.head? == some ':' then throw "Relative URLs cannot have a path starting with ':'"
  let path := if hasAuthority || !scheme.isEmpty then withoutDots path else path
  return {
    scheme := scheme
    user := encodeUnless safeInUser user
    host := host
    port := port
    path := encodeUnless safeInPath path
    query := query.map (encodeUnless safeInQuery)
    fragment := fragment.map (encodeUnless safeInFragment) }

namespace WebAddress

/-- An address as text. -/
def text (a : WebAddress) : List Char :=
  let authority :=
    (if a.user.isEmpty then [] else a.user ++ ['@']) ++
      (if a.host.contains ':' then '[' :: a.host ++ [']'] else a.host) ++
      (match a.port with | some n => ':' :: (toString n).toList | none => [])
  (if a.scheme.isEmpty then [] else a.scheme ++ [':']) ++
    (if authority.isEmpty then [] else '/' :: '/' :: authority) ++ a.path ++
    (match a.query with | some q => '?' :: q | none => []) ++
    (match a.fragment with | some f => '#' :: f | none => [])

/-- Whether an address stands on its own. -/
def isAbsolute (a : WebAddress) : Bool := !a.scheme.isEmpty && !a.host.isEmpty

/-- The address that is requested for one: without a host, all that is left is the path. -/
def requested (a : WebAddress) : WebAddress :=
  if a.isAbsolute then a
  else
    { scheme := [], user := [], host := [], port := none
      path := '/' :: a.path.dropWhile (· == '/')
      query := a.query
      fragment := none }

/-- The path of an address seen from a path. -/
def pathFrom (base path : List Char) : List Char :=
  let steps := pathSteps path
  let steps :=
    if path.head? == some '/' then steps
    else
      let all := (pathSteps base).dropLast ++ steps
      (all.take 1) ++ ((all.drop 1).dropLast.filter (!·.isEmpty)) ++ (all.drop 1).getLast?.toList
  let put (done : List (List Char)) (step : List Char) : List (List Char) :=
    if step == upStep then done.drop 1 else if step == sameStep then done else step :: done
  let done := (steps.foldl put []).reverse
  let last := steps.getLastD []
  match joinSteps (if last == sameStep || last == upStep then done ++ [[]] else done) with
  | [] => ['/']
  | joined => joined

/-- An address seen from another one. -/
def seenFrom (base a : WebAddress) : WebAddress :=
  if !a.host.isEmpty then { a with scheme := base.scheme }
  else if a.path.isEmpty then
    { base with query := if (a.query.getD []).isEmpty then base.query else a.query,
                fragment := a.fragment }
  else
    { base with path := pathFrom base.path a.path, query := a.query, fragment := a.fragment }

/-- The address that a redirect from another one leads to, or why its location is no address, or
nothing if there is an address that cannot be requested. -/
def redirected (from_ : WebAddress) (location : List Char) : Except (Option String) WebAddress := do
  let a ← (readWebAddress location).mapError some
  let a := if !a.scheme.isEmpty && a.host.isEmpty then { a with host := from_.host } else a
  let a ← if a.isAbsolute then pure a
    else (readWebAddress (from_.seenFrom a).text).mapError fun _ => none
  return if (a.fragment.getD []).isEmpty && !(from_.fragment.getD []).isEmpty then
    { a with fragment := from_.fragment } else a

end WebAddress

/-! ## Requests -/

/-- What the network answers to a request. -/
inductive WebAnswer where
  | status (code : Int)
  | redirect (code : Int) (location : String)
  | failure (words : String)

/-- A network: the answer to each address. -/
abbrev Web := String → WebAnswer

/-- The most redirects that are followed. -/
def redirectLimit : Nat := 20

/-- Whether a status sends the request elsewhere. -/
def isRedirect (code : Int) : Bool := [301, 302, 303, 307, 308].contains code

/-- What a request comes to: a status, or the words for a failure; nothing if it leads to an address
that cannot be requested. -/
abbrev WebOutcome := Option (Except String Int)

/-- The addresses requested for an address, and what the request comes to. -/
def fetchFrom (web : Web) : (left : Nat) → WebAddress → List String × WebOutcome
  | left, a =>
    let address := String.ofList a.text
    match web address with
    | .status code => ([address], some (.ok code))
    | .failure words => ([address], some (.error words))
    | .redirect code location =>
      if !isRedirect code then ([address], some (.ok code))
      else match a.redirected location.toList with
        | .error (some why) =>
          ([address], some (.error ("Invalid URL in location header: " ++ why ++ ".")))
        | .error none => ([address], none)
        | .ok next =>
          match left with
          | 0 => ([address], some (.error "Exceeded maximum allowed redirects."))
          | left + 1 =>
            let (more, outcome) := fetchFrom web left next
            (address :: more, outcome)

/-- The addresses requested for an address as it is written, and what the request comes to. -/
def fetchHead (web : Web) (address : String) : List String × WebOutcome :=
  match readWebAddress address.toList with
  | .ok a => fetchFrom web redirectLimit a.requested
  | .error _ => ([], none)

end Outline

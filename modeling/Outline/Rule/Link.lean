import Outline.Address.Web
import Outline.Path
import Outline.Rule.Basic

/-!
# Requirements on links

A link leads to an anchor of its own document, to a page, to a file, or by another scheme to
something that is not checked.

* `Surroundings`: the files and the network around a document;
* `LinkTarget`, `targetOf`: where a link leads;
* `fileOfLink`: the path of the file that a link leads to;
* `networkFor`, `requestPage`: the requests for pages;
* `checkLink`: the violation of a link, if there is one;
* `linkRule`: the rule on links.
-/

namespace Outline

/-- The files and the network around a document. -/
structure Surroundings where
  exists_ : String → Bool
  web : Web

/-- Where a link leads. -/
inductive LinkTarget where
  | anchor (name : String)
  | page
  | otherScheme
  | file
deriving DecidableEq

/-- Where an address leads. -/
def targetOf (url : String) : LinkTarget :=
  let cs := url.toList
  if cs.head? == some '#' then .anchor (String.ofList (cs.drop 1))
  else if Text.startsWith "http://".toList cs || Text.startsWith "https://".toList cs then .page
  else match splitScheme cs with
    | (some _, _) => .otherScheme
    | (none, _) => .file

/-! ## Files -/

/-- The path of the file that an address leads to, seen from the directory of the document; rooted
addresses start from the root directory, if there is one. Nothing if the address has no path. -/
def fileOfLink (rootDirectory directory : String) (url : String) : Option String :=
  let target := (url.toList.takeWhile (· != '#')).takeWhile (· != '?')
  if target.isEmpty then none
  else
    let path := decodePercent target
    let base := if rootDirectory.isEmpty then directory else rootDirectory
    some (String.ofList (normalPath (
      if path.head? == some '/' then joinPath base.toList (path.dropWhile (· == '/'))
      else joinPath directory.toList path)))

/-! ## Pages -/

/-- Whether a host is a domain or lies in it, in small or capital letters. -/
def isInDomain (host domain : String) : Bool :=
  let host := lowerChars host.toList
  let domain := lowerChars domain.toList
  host == domain || Text.endsWith ('.' :: domain) host

/-- What is wrong with the host of a page, or the host. -/
def checkHost (r : LinkRules) (url : String) : Except String Unit :=
  match splitAddress url with
  | .error _ => .error ("Invalid URL format: " ++ url)
  | .ok parts =>
    let host := hostOf parts.authority
    if r.blockedDomains.any (isInDomain host) then .error ("Link to blocked domain: " ++ host)
    else if !r.allowedDomains.isEmpty && !r.allowedDomains.any (isInDomain host) then
      .error ("Link to domain '" ++ host ++ "' is not in the allowed domains list")
    else .ok ()

/-- How long an answer is waited for. -/
def LinkRules.timeout (r : LinkRules) : Amount :=
  if 0 < r.externalTimeout.value then r.externalTimeout else 10

/-- The network that pages are requested from: one that is at hand, or else the one around the
document, which is turned to only if pages are requested. -/
def networkFor (atHand : Option Web) (around : Surroundings) (r : LinkRules) : Option Web :=
  if atHand.isSome || !r.validateExternal then atHand else some around.web

/-- Requests a page and says what is wrong with the answer. -/
def requestPage (web : Web) (r : LinkRules) (url : String) : Run (Option String) := do
  Run.debug "mdschema.document_rules" ("HEAD " ++ url)
  let (addresses, outcome) := fetchHead web url
  addresses.forM fun a => Run.request ⟨a, r.timeout⟩
  match outcome with
  | none => throw .badRequest
  | some (.error words) => return some ("Failed to reach URL '" ++ url ++ "': " ++ words)
  | some (.ok status) =>
    if 400 ≤ status then return some ("URL '" ++ url ++ "' returned status " ++ toString status)
    else return none

/-- What is wrong with a page; it is requested if its host is in order and there is a network. -/
def checkPage (network : Option Web) (r : LinkRules) (url : String) : Run (Option String) :=
  match checkHost r url with
  | .error message => return some message
  | .ok () =>
    match r.validateExternal, network with
    | true, some web => requestPage web r url
    | _, _ => return none

/-! ## Links -/

/-- What is wrong with a link, if something is. -/
def linkMessage (network : Option Web) (around : Surroundings) (r : LinkRules) (c : Context)
    (url : String) : Run (Option String) :=
  match targetOf url with
  | .anchor name =>
    return if r.validateInternal && !hasAnchor c.anchors name then
      some ("Broken internal link: anchor '" ++ url ++ "' does not exist in the document")
    else none
  | .page => checkPage network r url
  | .otherScheme => return none
  | .file =>
    if !r.validateFiles then return none
    else
      let directory := String.ofList (dirName c.document.path.toList)
      return match fileOfLink c.rootDirectory directory url with
        | some path =>
          if around.exists_ path then none
          else some ("Broken file link: '" ++ url ++ "' does not exist")
        | none => none

/-- The violation of a link, if there is one. -/
def checkLink (network : Option Web) (around : Surroundings) (r : LinkRules) (c : Context)
    (l : Link) : Run (Option Violation) := do
  return (← linkMessage network around r c l.url).map fun m =>
    reported "link" m (l.line, l.column)

/-- The violations of the requirements on links; there may be a network at hand. -/
def linkRule (around : Surroundings) (c : Context) (atHand : Option Web := none) :
    Run (List Violation) :=
  match c.schema.links with
  | some r => do
    let network := networkFor atHand around r
    return (← c.document.links.mapM (checkLink network around r c)).filterMap id
  | none => pure []

/-- The paths of the files that have to be looked for to check the links of a document. -/
def filesOfLinks (d : Document) (schema : Schema) (rootDirectory : String) : List String :=
  match schema.links with
  | some r =>
    if !r.validateFiles then []
    else d.links.filterMap fun l =>
      if targetOf l.url = .file then
        fileOfLink rootDirectory (String.ofList (dirName d.path.toList)) l.url
      else none
  | none => []

end Outline

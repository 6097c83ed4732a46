import Outline.Regex.Match
import Outline.Text.Find
import Outline.Text.Letter

/-!
# HTML in documents

* `HtmlStart`: the ways in which a block of HTML begins; each has an end of its own;
* `htmlStart?`: the way in which a line begins one;
* `HtmlStart.endsIn`: whether the block ends in a line;
* `htmlTagLength?`: the length of the tag, comment or instruction at the front of a text.
-/

namespace Outline.Markdown

/-! ## Tags -/

/-- A pattern for an attribute of a tag. -/
def attributePattern : String :=
  "(?:\\s+[a-zA-Z_:][a-zA-Z0-9:._-]*" ++
    "(?:\\s*=\\s*(?:[^\"'=<>\x60\\x00-\\x20]+|'[^']*'|\"[^\"]*\"))?)"

/-- A pattern for a tag that opens an element. -/
def openTagPattern : String := "<[A-Za-z][A-Za-z0-9\\-]*" ++ attributePattern ++ "*\\s*\\/?>"

/-- A pattern for a tag that closes an element. -/
def closeTagPattern : String := "<\\/[A-Za-z][A-Za-z0-9\\-]*\\s*>"

/-- A pattern for tags, comments, instructions, declarations and character data. -/
def htmlPattern : String :=
  "^(?:" ++ openTagPattern ++ "|" ++ closeTagPattern ++
    "|<!---?>|<!--(?:[^-]|-[^-]|--[^>])*-->" ++ "|<[?][\\s\\S]*?[?]>" ++ "|<![A-Za-z][^>]*>" ++
    "|<!\\[CDATA\\[[\\s\\S]*?\\]\\]>)"

/-- A pattern for a line that holds one tag and nothing behind it. -/
def tagLinePattern : String := "^(?:" ++ openTagPattern ++ "|" ++ closeTagPattern ++ ")\\s*$"

/-- A pattern ready for matching. -/
def compiled (pattern : String) : Option Regex.Pattern :=
  match Regex.compile pattern with
  | .ok p => some p
  | .error _ => none

/-- Tags and the like, ready for matching. -/
def htmlTag : Option Regex.Pattern := compiled htmlPattern

/-- Lines that hold one tag, ready for matching. -/
def tagLine : Option Regex.Pattern := compiled tagLinePattern

/-- The length of the tag, comment or instruction at the front of a text. -/
def htmlTagLength? (cs : List Char) : Option Nat := htmlTag.bind fun p => p.matchStart cs

/-! ## Blocks -/

/-- Elements whose tags begin a block. -/
def blockElements : List String :=
  ["address", "article", "aside", "base", "basefont", "blockquote", "body", "caption", "center",
    "col", "colgroup", "dd", "details", "dialog", "dir", "div", "dl", "dt", "fieldset",
    "figcaption", "figure", "footer", "form", "frame", "frameset", "h1", "h2", "h3", "h4", "h5",
    "h6", "head", "header", "hr", "html", "iframe", "legend", "li", "link", "main", "menu",
    "menuitem", "nav", "noframes", "ol", "optgroup", "option", "p", "param", "search", "section",
    "summary", "table", "tbody", "td", "tfoot", "th", "thead", "title", "tr", "track", "ul"]

/-- Elements whose text is no HTML. -/
def rawElements : List String := ["script", "pre", "style", "textarea"]

/-- How a block of HTML begins. -/
inductive HtmlStart where
  | raw
  | comment
  | instruction
  | declaration
  | data
  | element
  | tag
deriving DecidableEq

/-- A name at the front of a text, in any mixture of capitals and small letters, with a proper end
behind it. -/
def beginsWithName (names : List String) (slash : Bool) (cs : List Char) : Bool :=
  let run := cs.takeWhile isAsciiAlnum
  let behind := cs.drop run.length
  let ended := match behind with
    | [] => true
    | c :: rest => isBlank c || c == '>' || (slash && c == '/' && rest.head? == some '>')
  ended && names.contains (String.ofList (lowerChars run))

/-- How a line begins a block of HTML. -/
def htmlStart? (line : List Char) : Option HtmlStart :=
  match line with
  | '<' :: rest =>
    let inner := if rest.head? == some '/' then rest.drop 1 else rest
    if beginsWithName rawElements false rest then some .raw
    else if rest.take 3 == ['!', '-', '-'] then some .comment
    else if rest.head? == some '?' then some .instruction
    else if rest.head? == some '!' && (((rest.drop 1).head?.map fun c => 'A' ≤ c && c ≤ 'Z').getD false)
    then some .declaration
    else if rest.take 8 == "![CDATA[".toList then some .data
    else if beginsWithName blockElements true inner then some .element
    else match tagLine with
      | some p => if (p.matchStart line).isSome then some .tag else none
      | none => none
  | _ => none

/-- Whether the end tag of an element whose text is no HTML occurs in a text. -/
def closesRaw (line : List Char) : Bool :=
  let low := lowerChars line
  rawElements.any fun name => Text.contains low ("</" ++ name ++ ">").toList

/-- Whether a block that began in a given way ends in a line. -/
def HtmlStart.endsIn (start : HtmlStart) (line : List Char) : Bool :=
  match start with
  | .raw => closesRaw line
  | .comment => Text.contains line ['-', '-', '>']
  | .instruction => Text.contains line ['?', '>']
  | .declaration => line.contains '>'
  | .data => Text.contains line [']', ']', '>']
  | .element | .tag => line.isEmpty

end Outline.Markdown

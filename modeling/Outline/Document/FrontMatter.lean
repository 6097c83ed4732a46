import Outline.Yaml.Load

/-!
# Front matter

A document may begin with a mapping in YAML, between a line `---` and a line `---` or `...`. Its
lines count in the numbers of the lines behind it: they stand empty in the body.

* `FrontMatter`: the text between the two lines, and the mapping that it writes;
* `closingLine?`: where the front matter of a document ends, if it has one;
* `splitFrontMatter`: the front matter and the body of a text.
-/

namespace Outline

/-- Why front matter has no mapping. -/
inductive FrontMatterError where
  | notYaml
  | notMapping
deriving DecidableEq

/-- Front matter: its text, and the entries that it writes. -/
structure FrontMatter where
  content : String
  entries : Except FrontMatterError (List (Value × Value))

/-- The line that opens front matter, without the blanks behind it. -/
def frontMatterMark : List Char := ['-', '-', '-']

/-- Whether a line opens front matter. -/
def opensFrontMatter (line : List Char) : Bool := trimRight isBlank line == frontMatterMark

/-- Whether a line closes front matter. -/
def closesFrontMatter (line : List Char) : Bool :=
  opensFrontMatter line || trimRight isBlank line == ['.', '.', '.']

/-- The index of the line that closes the front matter of a document. -/
def closingLine? (lines : List (List Char)) : Option Nat :=
  match lines with
  | [] => none
  | first :: rest =>
    if opensFrontMatter first then (rest.findIdx? closesFrontMatter).map (· + 1) else none

/-- Lines joined with line feeds. -/
def joinLines (lines : List (List Char)) : List Char := ['\n'].intercalate lines

/-- The entries that a text writes. -/
def readEntries (text : String) : Except Fault (Except FrontMatterError (List (Value × Value))) :=
  if text.toList.all isBlank then .ok (.ok [])
  else match Yaml.load text with
    | .ok (.map entries) => .ok (.ok entries)
    | .ok _ => .ok (.error .notMapping)
    | .error .notYaml => .ok (.error .notYaml)
    | .error f => .error f

/-- The front matter of a text, if it has any, and the body: the text with the lines of the front
matter emptied. -/
def splitFrontMatter (text : String) : Except Fault (Option FrontMatter × String) :=
  let lines := cutOn '\n' text.toList
  match closingLine? lines with
  | none => .ok (none, text)
  | some close =>
    let content := String.ofList (joinLines ((lines.take close).drop 1))
    let body := joinLines (List.replicate (close + 1) [] ++ lines.drop (close + 1))
    (readEntries content).map fun entries =>
      (some ⟨content, entries⟩, String.ofList body)

end Outline

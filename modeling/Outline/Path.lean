import Outline.Text.Blank

/-!
# Paths

A path is a text in which slashes separate the names of directories; what follows the last slash is
the name of the file. A plain path is the row of its steps, without those that lead nowhere else;
double dots stay.

* `baseName`, `dirName`: the name of the file, and the path of its directory;
* `splitExtension`: a path without its extension, and the extension with its dot; dots at the
  start of a name begin no extension;
* `fileStem`: the name of the file without its extension;
* `joinPath`: a path that starts from a directory, unless it starts from the root;
* `normalPath`: a path without empty and single-dot steps, where a double dot takes the step before
  it away;
* `PlainPath`, `PlainPath.read`, `PlainPath.text`: the steps of a path, and the path again;
* `PlainPath.parent`, `PlainPath.below`: the path of the directory, and of a member;
* `PlainPath.extension`: the extension of the last step, with its dot;
* `PlainPath.le`: the order of paths, step by step.
-/

namespace Outline

/-! ## Names of files -/

/-- What stands before the last occurrence of a character, that occurrence included, and what stands
behind it. -/
def splitLast (sep : Char) (cs : List Char) : List Char × List Char :=
  let back := cs.reverse
  ((back.dropWhile (· != sep)).reverse, (back.takeWhile (· != sep)).reverse)

/-- The name of the file of a path. -/
def baseName (path : List Char) : List Char := (splitLast '/' path).2

/-- The path of the directory of a path; slashes at its end count only if it has nothing else. -/
def dirName (path : List Char) : List Char :=
  let head := (splitLast '/' path).1
  if head.all (· == '/') then head else (head.reverse.dropWhile (· == '/')).reverse

/-- A path without its extension, and the extension with its dot. -/
def splitExtension (path : List Char) : List Char × List Char :=
  let (directory, name) := splitLast '/' path
  match splitLast '.' name with
  | ([], _) => (path, [])
  | (stem, extension) =>
    let stem := stem.dropLast
    if stem.all (· == '.') then (path, []) else (directory ++ stem, '.' :: extension)

/-- The name of the file of a path, without its extension. -/
def fileStem (path : String) : String :=
  String.ofList (splitExtension (baseName path.toList)).1

/-! ## Paths in normal form -/

/-- The steps of a path: what stands between its slashes. -/
def pathSteps (path : List Char) : List (List Char) := cutOn '/' path

/-- Steps with slashes between them. -/
def joinSteps (steps : List (List Char)) : List Char := ['/'].intercalate steps

/-- A path seen from a directory. -/
def joinPath (directory path : List Char) : List Char :=
  if path.head? == some '/' || directory.isEmpty then path
  else if directory.getLast? == some '/' then directory ++ path
  else directory ++ '/' :: path

/-- The step to the same directory. -/
def sameStep : List Char := ['.']

/-- The step to the directory above. -/
def upStep : List Char := ['.', '.']

/-- Whether a step leads nowhere else. -/
def isIdleStep (step : List Char) : Bool := step.isEmpty || step == sameStep

/-- Puts a step behind others, the last one first; a double dot takes the last one away, and stays
where there is none, except at the root. -/
def putStep (rooted : Bool) (steps : List (List Char)) (step : List Char) : List (List Char) :=
  if step != upStep then step :: steps
  else match steps with
    | [] => if rooted then [] else [step]
    | last :: before => if last == upStep then step :: steps else before

/-- The slashes that a path keeps at its front: two if it has just two. -/
def rootSlashes (path : List Char) : List Char :=
  match path with
  | '/' :: '/' :: '/' :: _ => ['/']
  | '/' :: '/' :: _ => ['/', '/']
  | '/' :: _ => ['/']
  | _ => []

/-- A path in normal form. -/
def normalPath (path : List Char) : List Char :=
  let root := rootSlashes path
  let steps := ((pathSteps path).filter (!isIdleStep ·)).foldl (putStep !root.isEmpty) []
  match root ++ joinSteps steps.reverse with
  | [] => sameStep
  | normal => normal

/-! ## Plain paths -/

/-- The steps of a path, and the slashes that it starts with. -/
structure PlainPath where
  root : String
  steps : List String
deriving DecidableEq, Inhabited

namespace PlainPath

/-- The steps of a path. -/
def read (path : String) : PlainPath :=
  let cs := path.toList
  ⟨String.ofList (rootSlashes cs), ((pathSteps cs).filter (!isIdleStep ·)).map String.ofList⟩

/-- A path as text. -/
def text (p : PlainPath) : String :=
  if p.root.isEmpty && p.steps.isEmpty then "." else p.root ++ "/".intercalate p.steps

/-- The path of the directory; the root is its own directory. -/
def parent (p : PlainPath) : PlainPath := { p with steps := p.steps.dropLast }

/-- All directories above a path, the nearest first. -/
def parents (p : PlainPath) : List PlainPath :=
  (List.range p.steps.length).map fun i => { p with steps := p.steps.take (p.steps.length - 1 - i) }

/-- The path of a member of a directory. -/
def below (p : PlainPath) (name : String) : PlainPath := { p with steps := p.steps ++ [name] }

/-- The path of a path seen from a directory. -/
def join (p q : PlainPath) : PlainPath :=
  if q.root.isEmpty then { p with steps := p.steps ++ q.steps } else q

/-- The last step. -/
def name (p : PlainPath) : String := p.steps.getLastD ""

/-- The extension of the last step, with its dot: there is something before the dot and something
behind it. -/
def extension (p : PlainPath) : String :=
  match splitLast '.' p.name.toList with
  | ([], _) => ""
  | (stem, extension) =>
    if stem.length ≤ 1 || extension.isEmpty then "" else String.ofList ('.' :: extension)

/-- The steps by which paths are compared. -/
def key (p : PlainPath) : List String := if p.root.isEmpty then p.steps else p.root :: p.steps

/-- The order of paths, step by step. -/
def le (p q : PlainPath) : Bool := !decide (q.key < p.key)

end PlainPath

end Outline

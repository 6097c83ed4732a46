import Outline.Files.Basic
import Outline.Files.Wildcard
import Outline.Path

/-!
# Finding files

* `filesBelow`: all that is below a directory;
* `expandPattern`: what fits a pattern, in which the steps of a path may have wildcards; a step of two
  stars stands for any number of directories. Names that start with a dot fit only patterns that do.

A path has at most `deepestPath` characters, so no directory lies deeper.
-/

namespace Outline

/-- A bound for the number of directories in a path. -/
def deepestPath : Nat := 4096

section Reader

variable {m : Type → Type} [Monad m] (files : FileReader m)

namespace FileReader

/-- Whether a path leads to a file. -/
def isFile (path : String) : m Bool := return (← files.kind path) = some .file

/-- Whether a path leads to a directory. -/
def isDirectory (path : String) : m Bool := return (← files.kind path) = some .directory

/-- Whether a path leads anywhere. -/
def leads (path : String) : m Bool := return (← files.kind path).isSome

end FileReader

/-! ## Directories -/

/-- The paths of all that is below a directory, to a depth. -/
def filesToDepth : (depth : Nat) → PlainPath → m (List PlainPath)
  | 0, _ => pure []
  | depth + 1, directory => do
    let found ← (← files.names directory.text).mapM fun name => do
      let path := directory.below name
      if ← files.isDirectory path.text then
        return path :: (← filesToDepth depth path)
      else return [path]
    return found.flatten

/-- The paths of all that is below a directory. -/
def filesBelow (directory : PlainPath) : m (List PlainPath) :=
  filesToDepth files deepestPath directory

/-! ## Patterns -/

/-- A path seen from a directory, as text. -/
def joined (directory path : String) : String :=
  String.ofList (joinPath directory.toList path.toList)

/-- Whether a name starts with a dot. -/
def isHidden (name : String) : Bool := name.toList.head? == some '.'

/-- The names in a directory, or those of directories only; no directory at all is the one where
paths start. -/
def namesIn (directoriesOnly : Bool) (directory : String) : m (List String) := do
  let names ← files.names (if directory.isEmpty then "." else directory)
  if directoriesOnly then names.filterM fun name => files.isDirectory (joined directory name)
  else return names

/-- The names in a directory that fit a pattern. -/
def fittingNames (directoriesOnly : Bool) (pattern : List Char) (directory : String) :
    m (List String) := do
  let names ← namesIn files directoriesOnly directory
  return names.filter fun name =>
    (pattern.head? == some '.' || !isHidden name) && fitsPattern pattern name.toList

/-- The paths of all that is below a directory, to a depth, seen from there; hidden names are left
out. -/
def openPaths (directoriesOnly : Bool) : (depth : Nat) → String → m (List String)
  | 0, _ => pure []
  | depth + 1, directory => do
    let names ← namesIn files directoriesOnly directory
    let found ← (names.filter (!isHidden ·)).mapM fun name => do
      let inner ← openPaths directoriesOnly depth (joined directory name)
      return name :: inner.map (joined name)
    return found.flatten

/-- A directory itself and all that is below it, seen from there. -/
def openTree (directoriesOnly : Bool) (directory : String) : m (List String) := do
  let inner ← openPaths files directoriesOnly deepestPath directory
  if directory.isEmpty || (← files.isDirectory directory) then return "" :: inner
  else return inner

/-- A name in a directory, if it is there. -/
def plainName (name : List Char) (directory : String) : m (List String) := do
  let name := String.ofList name
  let there ← if name.isEmpty then files.isDirectory directory
    else files.leads (joined directory name)
  return if there then [name] else []

/-- What the last step of a pattern stands for in a directory. -/
def expandStep (directoriesOnly : Bool) (step : List Char) (directory : String) :
    m (List String) :=
  if step = ['*', '*'] then openTree files directoriesOnly directory
  else if hasWildcard step then fittingNames files directoriesOnly step directory
  else plainName files step directory

/-- The paths that fit a pattern, or those of directories only. -/
def expandWithin (directoriesOnly : Bool) (pattern : List Char) : m (List String) := do
  if (dirName pattern).isEmpty then expandStep files directoriesOnly (baseName pattern) ""
  else
    let directories ←
      if (dirName pattern).length < pattern.length ∧ hasWildcard (dirName pattern) then
        expandWithin true (dirName pattern)
      else pure [String.ofList (dirName pattern)]
    let found ← directories.mapM fun directory => do
      let names ← expandStep files directoriesOnly (baseName pattern) directory
      return names.map (joined directory)
    return found.flatten
termination_by pattern.length

/-- The paths that fit a pattern. -/
def expandPattern (pattern : String) : m (List String) :=
  expandWithin files false pattern.toList

end Reader

end Outline

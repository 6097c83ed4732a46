import Outline.Files.Glob
import Outline.Text.Letter

/-!
# Documents among files

* `isDocumentPath`: whether a path has the extension of a document;
* `findDocuments`: the documents that directories, patterns and paths stand for.
-/

namespace Outline

/-- The extensions of documents. -/
def documentExtensions : List String := [".md", ".mdx"]

/-- Whether a path has the extension of a document, in capitals or not. -/
def isDocumentPath (p : PlainPath) : Bool := documentExtensions.contains (lower p.extension)

/-- A list without the members that occur again further on. -/
def withoutRepeats {α : Type} [BEq α] : List α → List α
  | [] => []
  | a :: as => if as.contains a then withoutRepeats as else a :: withoutRepeats as

/-- Paths in their order, each once. -/
def sortedPaths (paths : List PlainPath) : List PlainPath :=
  (withoutRepeats paths).mergeSort PlainPath.le

/-- What is said about a path that stands for nothing. -/
def noSuchPath (path : String) : String := "No such file or directory: " ++ path

section Reader

variable {m : Type → Type} [Monad m] (files : FileReader m)

/-- The paths that a directory, a pattern or a path stands for: all that is below the directory, all
that fits the pattern, or the path itself, if there is anything. -/
def pathsFor (pattern : String) : m (Option (List PlainPath)) := do
  if ← files.isDirectory pattern then
    return some (← filesBelow files (.read pattern))
  else if hasWildcard pattern.toList then
    return some ((← expandPattern files pattern).map .read)
  else if ← files.leads pattern then return some [.read pattern]
  else return none

/-- Whether a path leads to a document. -/
def isDocument (p : PlainPath) : m Bool := do
  if isDocumentPath p then files.isFile p.text else return false

/-- The documents among the paths for each of some patterns, or the first pattern that stands for
nothing. -/
def documentsFor : List String → m (Except String (List PlainPath))
  | [] => return .ok []
  | pattern :: patterns => do
    match ← pathsFor files pattern with
    | none => return .error pattern
    | some paths =>
      let here ← paths.filterM (isDocument files)
      match ← documentsFor patterns with
      | .ok rest => return .ok (here ++ rest)
      | .error missing => return .error missing

/-- The documents that some patterns stand for, in their order, or the first pattern that stands for
nothing. -/
def findDocuments (patterns : List String) : m (Except String (List PlainPath)) := do
  return (← documentsFor files patterns).map sortedPaths

end Reader

end Outline

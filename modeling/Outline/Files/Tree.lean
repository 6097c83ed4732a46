import Outline.Files.Basic
import Outline.Path

/-!
# Files in memory

A tree of files, with a directory in it where paths start.

* `FileTree`: a file or a directory;
* `Disk`, `Disk.find`: a tree with a working directory, and what a path leads to there;
* `Disk.reader`: the answers to the questions of a `FileReader`;
* `Disk.write`, `Disk.makeDirectory`: changes;
* `Disk.system`: questions and changes, for computations whose state is a disk.
-/

namespace Outline

/-- A file, or a directory with named members. -/
inductive FileTree where
  | file (bytes : List Nat)
  | directory (members : List (String × FileTree))

namespace FileTree

instance : Inhabited FileTree := ⟨.directory []⟩

/-- What a tree is. -/
def kind : FileTree → FileKind
  | .file _ => .file
  | .directory _ => .directory

/-- The members of a directory. -/
def members : FileTree → List (String × FileTree)
  | .file _ => []
  | .directory ms => ms

/-- The names of the members. -/
def names (t : FileTree) : List String := t.members.map (·.1)

/-- The member with a name. -/
def member? (t : FileTree) (name : String) : Option FileTree := t.members.lookup name

/-- The tree below a row of names. -/
def at? (t : FileTree) : List String → Option FileTree
  | [] => some t
  | name :: rest => match t.member? name with
    | some m => m.at? rest
    | none => none

/-- A list with the member of a name set. -/
def setMember (name : String) (t : FileTree) : List (String × FileTree) → List (String × FileTree)
  | [] => [(name, t)]
  | m :: ms => if m.1 == name then (name, t) :: ms else m :: setMember name t ms

/-- A tree with another tree put below a row of names; directories on the way are made. -/
def put (new : FileTree) : List String → FileTree → FileTree
  | [], _ => new
  | name :: rest, t =>
    .directory (setMember name (put new rest ((t.member? name).getD default)) t.members)

end FileTree

/-- A tree of files from the root, and the names on the way to the working directory. -/
structure Disk where
  root : FileTree
  workingDirectory : List String

namespace Disk

/-- Goes one step from a directory, given by the names on the way to it. -/
def step (d : Disk) (place : List String) (step : String) : Except FileError (List String) :=
  match d.root.at? place with
  | none => .error .missing
  | some (.file _) => .error .notADirectory
  | some (.directory ms) =>
    if step == "" || step == "." then .ok place
    else if step == ".." then .ok place.dropLast
    else match ms.lookup step with
      | some _ => .ok (place ++ [step])
      | none => .error .missing

/-- Where a path leads, as the names on the way from the root. -/
def find (d : Disk) (path : String) : Except FileError (List String) :=
  let cs := path.toList
  if cs.isEmpty then .error .missing
  else
    let start := if cs.head? == some '/' then [] else d.workingDirectory
    ((pathSteps cs).map String.ofList).foldlM d.step start

/-- What a path leads to. -/
def look (d : Disk) (path : String) : Except FileError FileTree := do
  match d.root.at? (← d.find path) with
  | some t => return t
  | none => throw .missing

/-- The path of a place from the root. -/
def pathOf (place : List String) : String := "/" ++ "/".intercalate place

/-- Questions about the files of a disk. -/
def reader (d : Disk) : FileReader Id where
  workingDirectory := pathOf d.workingDirectory
  kind path := match d.look path with
    | .ok t => some t.kind
    | .error _ => none
  names path := match d.look path with
    | .ok t => t.names
    | .error _ => []
  bytes path := match d.look path with
    | .ok (.file bytes) => .ok bytes
    | .ok (.directory _) => .error .isDirectory
    | .error e => .error e

/-- Sets the file at a path, in a directory that exists. -/
def write (d : Disk) (path : String) (bytes : List Nat) : Except FileError Disk := do
  match d.look path with
  | .ok (.directory _) => throw .isDirectory
  | _ =>
    let parent := dirName path.toList
    let place ← if parent.isEmpty then pure d.workingDirectory else d.find (String.ofList parent)
    match d.root.at? place with
    | some (.directory _) =>
      let name := String.ofList (baseName path.toList)
      return { d with root := FileTree.put (.file bytes) (place ++ [name]) d.root }
    | some (.file _) => throw .notADirectory
    | none => throw .missing

/-- Makes a directory in one that exists. -/
def makeDirectory (d : Disk) (path : String) : Except FileError Disk := do
  match d.look path with
  | .ok _ => throw .exists
  | .error .notADirectory => throw .notADirectory
  | .error _ =>
    let parent := dirName path.toList
    let place ← if parent.isEmpty then pure d.workingDirectory else d.find (String.ofList parent)
    let name := String.ofList (baseName path.toList)
    return { d with root := FileTree.put (.directory []) (place ++ [name]) d.root }

/-- A change of a disk as a step of a computation; one that fails changes nothing. -/
def changing (change : Disk → Except FileError Disk) : StateM Disk (Except FileError Unit) := do
  match change (← get) with
  | .error e => return .error e
  | .ok d =>
    set d
    return .ok ()

/-- Files whose state is a disk. -/
def system : FileSystem (StateM Disk) where
  workingDirectory := return (← get).reader.workingDirectory
  kind path := return (← get).reader.kind path
  names path := return (← get).reader.names path
  bytes path := return (← get).reader.bytes path
  write path text := changing (·.write path (text.toList.flatMap Utf8.encode))
  makeDirectory path := changing (·.makeDirectory path)

end Disk

end Outline

import Outline.Command.Tool

/-!
# The program

Runs the program that it is called as, on the files of the disk. Pages cannot be asked for from here,
so every check of a page fails.
-/

namespace Outline

/-- The trouble behind a failed step. -/
def FileError.ofFailure (e : IO.Error) : FileError :=
  match e with
  | .permissionDenied .. => .denied
  | .alreadyExists .. => .exists
  | .inappropriateType _ code _ => if code = 20 then .notADirectory else .isDirectory
  | _ => .missing

/-- A step whose failure is a result. -/
def tried {α : Type} (step : IO α) : IO (Except FileError α) := do
  try
    return .ok (← step)
  catch e =>
    return .error (.ofFailure e)

/-- What a path leads to. -/
def kindOnDisk (path : String) : IO (Option FileKind) := do
  let found ← tried do
    let data ← (← IO.FS.realPath path).metadata
    return data.type
  match found with
  | .ok .dir => return some .directory
  | .ok .file => return some .file
  | _ => return none

/-- The files of the disk. -/
def realDisk : FileSystem IO where
  workingDirectory := return (← IO.currentDir).toString
  kind := kindOnDisk
  names path := do
    let entries ← tried do (← IO.FS.realPath path).readDir
    match entries with
    | .ok entries => return entries.toList.map (·.fileName)
    | .error _ => return []
  bytes path := do
    if (← kindOnDisk path) = some .directory then return .error .isDirectory
    tried do return (← IO.FS.readBinFile path).toList.map (·.toNat)
  write path text := do
    if (← kindOnDisk path) = some .directory then return .error .isDirectory
    tried (IO.FS.writeFile path text)
  makeDirectory path := tried (IO.FS.createDir path)

/-- A web without pages. -/
def noWeb : Web := fun _ => .failure "no network"

/-- How the commands are used. -/
def commandUsage : String :=
  "usage: mdschema [-h] [--verbose] \x7bcheck,lint-schema,init,generate,derive,schema\x7d ...\n"

/-- Prints what a program leaves behind, and answers its code. -/
def Ending.print : Ending → IO UInt32
  | .finished o => do
    IO.print o.output
    IO.eprint o.errors
    return o.code.toUInt32
  | .stopped .help => do
    IO.print commandUsage
    return 0
  | .stopped .usage => do
    IO.eprint commandUsage
    return 2
  | .broken f => do
    IO.eprintln (f.message?.getD "the data cannot be handled")
    return 1

end Outline

open Outline in
/-- Runs the program with the name that it is called by. -/
def main (arguments : List String) : IO UInt32 := do
  let name := ((← IO.appPath).fileStem).getD ""
  let (ending, log) ← (Program.ofName name).run realDisk noWeb arguments
  IO.eprint log
  ending.print

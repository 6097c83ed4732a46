import Outline.Evaluation
import Outline.Files.Glob

/-!
# Sessions

Computations that ask for files, note things on the way and may end in a fault.

* `Session`: such a computation, over the monad that answers questions about files;
* `Session.ofFiles`, `Session.ofRun`: its two kinds of steps;
* `readFileText`: the text of a file;
* `evaluateFile`: the violations of a document in a file.
-/

namespace Outline

/-- A computation that asks for files, notes things and may end in a fault. -/
abbrev Session (m : Type → Type) (α : Type) := ExceptT Fault (StateT Journal m) α

section

variable {m : Type → Type} [Monad m] {α : Type}

namespace Session

/-- An answer about files. -/
def ofFiles (answer : m α) : Session m α := ExceptT.lift (StateT.lift answer)

/-- A computation that asks for no files. -/
def ofRun (r : Run α) : Session m α := ExceptT.mk fun journal => pure (r.run journal)

/-- A result that may be a fault. -/
def ofExcept (r : Except Fault α) : Session m α := ofRun (Run.lift r)

/-- Notes a detail. -/
def debug (part text : String) : Session m Unit := ofRun (Run.debug part text)

/-- The result and the journal. -/
def journal (s : Session m α) : m (Except Fault α × Journal) := (ExceptT.run s).run {}

end Session

/-- The text of a file, or the fault that keeps it from being read. -/
def readFileText (files : FileReader m) (path : String) : m (Except Fault String) := do
  match ← files.bytes path with
  | .error e => return .error (.file path e)
  | .ok bytes =>
    match textOfBytes bytes with
    | .error e => return .error (.notText e)
    | .ok text => return .ok text

/-- The violations of a document, where files are looked for as its links are checked. -/
def evaluateIn (files : FileReader m) (web : Web) (schema : Schema) (d : Document) :
    Session m (List Violation) := do
  let root := rootDirectoryOf none schema
  let there ← Session.ofFiles ((filesOfLinks d schema root).filterM files.leads)
  Session.ofRun (evaluate ⟨there.contains, web⟩ schema root d)

end

end Outline

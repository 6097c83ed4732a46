import Outline.Schema.Load
import Outline.Session

/-!
# Schemas in files

* `findSchema`: the nearest file of a schema, on the way up from a place;
* `readSchema`: the schema in a file;
* `chooseSchema`: the schema in a given file, or in the nearest one.
-/

namespace Outline

/-- The names of files that hold schemas. -/
def schemaNames : List String := [".mdschema.yml", ".mdschema.yaml"]

/-- A schema that could not be loaded, and the name of its source. -/
structure SchemaFailure where
  source : String
  cause : LoadError

/-- The words for a schema that could not be loaded. -/
def SchemaFailure.message (f : SchemaFailure) : String := f.cause.message f.source

/-- The path of a place from the root. -/
def absolutePath (workingDirectory path : String) : PlainPath :=
  let normal := normalPath (joinPath workingDirectory.toList path.toList)
  { PlainPath.read (String.ofList normal) with root := "/" }

section Reader

variable {m : Type → Type} [Monad m] (files : FileReader m)

/-- The first of some paths that leads to a file. -/
def firstFile : List PlainPath → m (Option PlainPath)
  | [] => return none
  | p :: ps => do if ← files.isFile p.text then return some p else firstFile ps

/-- The nearest file of a schema: in the directory of a place, or the next one above that has one. -/
def findSchema (start : String) : Session m (Option PlainPath) := do
  let place := absolutePath (← Session.ofFiles files.workingDirectory) start
  let isDirectory ← Session.ofFiles (files.isDirectory place.text)
  let directory := if isDirectory then place else place.parent
  let candidates := (directory :: directory.parents).flatMap fun d => schemaNames.map d.below
  let found ← Session.ofFiles (firstFile files candidates)
  match found with
  | some p => Session.debug "mdschema.schema" ("Found schema " ++ p.text)
  | none => pure ()
  return found

/-- The schema in a file. -/
def readSchema (path : String) : Session m (Except SchemaFailure Schema) := do
  let source := (PlainPath.read path).text
  match ← Session.ofFiles (readFileText files source) with
  | .error (.file _ e) => return .error ⟨source, .unreadable e.words⟩
  | .error f => throw f
  | .ok text =>
    match loadSchemaText text source with
    | .error (.fault f) => throw f
    | .error e => return .error ⟨source, e⟩
    | .ok schema =>
      Session.debug "mdschema.schema" ("Loaded schema " ++ source ++ " (" ++
        toString schema.elements.length ++ " top-level elements)")
      return .ok schema

/-- The schema in a file, if one is given, or else in the nearest one. -/
def chooseSchema (path : Option String) : Session m (Except SchemaFailure Schema) := do
  match path with
  | some path => readSchema files path
  | none =>
    match ← findSchema files "" with
    | some p => readSchema files p.text
    | none =>
      let directory ← Session.ofFiles files.workingDirectory
      return .error ⟨"", .notFound ("no schema file found (looked for " ++
        ", ".intercalate schemaNames ++ " in " ++ directory ++
        " and its parents); use --schema")⟩

end Reader

end Outline

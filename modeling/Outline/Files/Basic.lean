import Outline.Text.Quoted
import Outline.Text.Utf8

/-!
# Files

What the program asks of the files around it. The questions are put to a `FileReader`, so that they
can be answered by a real disk or by a tree in memory.

* `FileError`, `FileError.message`: why a path cannot be used, and the words for it;
* `Utf8.Error.message`: the words for bytes that write no text;
* `FileKind`: what a path leads to;
* `FileReader`: the questions;
* `FileSystem`: the questions, and changes;
* `textOfBytes`: the text of a file.
-/

namespace Outline

/-! ## Trouble with files -/

/-- Why a path cannot be used. -/
inductive FileError where
  | missing
  | denied
  | exists
  | notADirectory
  | isDirectory
deriving DecidableEq

namespace FileError

/-- The words for an error. -/
def words : FileError → String
  | .missing => "No such file or directory"
  | .denied => "Permission denied"
  | .exists => "File exists"
  | .notADirectory => "Not a directory"
  | .isDirectory => "Is a directory"

/-- The number of an error. -/
def number : FileError → Nat
  | .missing => 2
  | .denied => 13
  | .exists => 17
  | .notADirectory => 20
  | .isDirectory => 21

/-- The words for an error with its number and the path. -/
def message (path : String) (e : FileError) : String :=
  "[Errno " ++ toString e.number ++ "] " ++ e.words ++ ": " ++ shown path

end FileError

/-- A byte as it is shown in messages. -/
def shownByte (n : Nat) : String := "0x" ++ String.ofList (hexDigits 2 n)

/-- Why bytes write no text. -/
def Utf8.Reason.words : Utf8.Reason → String
  | .start => "invalid start byte"
  | .continuation => "invalid continuation byte"
  | .ending => "unexpected end of data"

/-- The words for bytes that write no text. -/
def Utf8.Error.message (e : Utf8.Error) : String :=
  "'utf-8' codec can't decode " ++
    (match e.bytes with
      | [b] => "byte " ++ shownByte b ++ " in position " ++ toString e.place
      | bs => "bytes in position " ++ toString e.place ++ "-" ++
        toString (e.place + bs.length - 1)) ++
    ": " ++ e.why.words

/-! ## Questions -/

/-- What a path leads to. -/
inductive FileKind where
  | file
  | directory
deriving DecidableEq

/-- Questions about files. A path that does not start from the root starts from the working
directory. -/
structure FileReader (m : Type → Type) where
  /-- The path of the working directory from the root. -/
  workingDirectory : m String
  /-- What a path leads to, if it leads anywhere. -/
  kind : String → m (Option FileKind)
  /-- The names in a directory. -/
  names : String → m (List String)
  /-- The bytes of a file. -/
  bytes : String → m (Except FileError (List Nat))

/-- Questions about files, and changes of them. -/
structure FileSystem (m : Type → Type) extends FileReader m where
  /-- Sets the text of a file in a directory that exists. -/
  write : String → String → m (Except FileError Unit)
  /-- Makes a directory in one that exists. -/
  makeDirectory : String → m (Except FileError Unit)

/-! ## Texts of files -/

/-- A text with one kind of line break: a carriage return, alone or before a line feed, becomes a
line feed. -/
def plainBreaks : List Char → List Char
  | [] => []
  | '\r' :: '\n' :: cs => '\n' :: plainBreaks cs
  | '\r' :: cs => '\n' :: plainBreaks cs
  | c :: cs => c :: plainBreaks cs

/-- The text of a file. -/
def textOfBytes (bytes : List Nat) : Except Utf8.Error String := do
  return String.ofList (plainBreaks (← Utf8.decode bytes))

end Outline

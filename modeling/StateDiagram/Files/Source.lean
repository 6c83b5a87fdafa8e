import StateDiagram.Files.Basic
import StateDiagram.Pipeline

/-!
# `Files.Source` — processing the source in a file

## Contents

* `FileError`, `FileError.message` — why a file gives no text;
* `processFile` — the text that a spec wants of the source in a file.
-/

namespace StateDiagram

/-- The extension of files that hold sources. -/
def sourceExtension : String := "av"

/-- Why a file gives no text. -/
inductive FileError
  /-- It is not named like a source. -/
  | badExtension (found : Option String)
  | unreadable (path : String) (e : ReadError)
  | process (e : ProcessError)
deriving DecidableEq, Repr

/-- The report of why a file gives no text. -/
def FileError.message : FileError → String
  | badExtension found =>
    "Invalid file extension: expected ." ++ sourceExtension ++ " got " ++
      (found.map ("." ++ ·)).getD ""
  | unreadable path e => "IO error: " ++ path ++ ": " ++ e.message
  | process e => e.message

/-- The text that a spec wants of the source in a file. The name is looked at before the file is. -/
def processFile (files : Files) (path : String) (spec : Spec) (layout : Layout) :
    Except FileError String :=
  if Path.extension? path = some sourceExtension then
    match files.readText path with
    | .error e => .error (.unreadable path e)
    | .ok source => (process source spec layout).mapError .process
  else .error (.badExtension (Path.extension? path))

end StateDiagram

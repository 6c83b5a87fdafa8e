import StateDiagram.Files.Path

/-!
# `Files.Basic` — reading files

All that this library asks of a file system is the content of a file, or why there is none. The files
below one directory, given as a list, are a file system too.

## Contents

* `ReadError`, `ReadError.message` — why a file is not read;
* `Files` — a file system;
* `Files.isFile`, `Files.readText` — whether a path is a file, and its content as text;
* `FileList`, `Files.ofList` — the file system of a list of files.
-/

namespace StateDiagram

/-- Why a file is not read. -/
inductive ReadError
  | nulInName
  | notFound
  | permissionDenied
  | notDirectory
  | isDirectory
  | nameTooLong
  | notText
  | other (reason : String)
deriving DecidableEq, Repr

/-- The wording of a read error. -/
def ReadError.message : ReadError → String
  | nulInName => "file name contained an unexpected NUL byte"
  | notFound => "No such file or directory (os error 2)"
  | permissionDenied => "Permission denied (os error 13)"
  | notDirectory => "Not a directory (os error 20)"
  | isDirectory => "Is a directory (os error 21)"
  | nameTooLong => "File name too long (os error 36)"
  | notText => "stream did not contain valid UTF-8"
  | other reason => reason

/-- A file system: the content of each file. -/
structure Files where
  read : String → Except ReadError ByteArray

namespace Files

/-- Whether a path leads to a file, be it readable or not. -/
def isFile (files : Files) (path : String) : Bool :=
  match files.read path with
  | .ok _ | .error .permissionDenied | .error (.other _) => true
  | .error _ => false

/-- The content of a file as text. -/
def readText (files : Files) (path : String) : Except ReadError String :=
  match files.read path with
  | .ok bytes =>
    match String.fromUTF8? bytes with
    | some text => .ok text
    | none => .error .notText
  | .error e => .error e

end Files

/-! ## Files below one directory -/

/-- Files below a directory: the parts of each path, and the content. Directories are there because
    something is in them. -/
abbrev FileList := List (List String × ByteArray)

namespace FileList

/-- The parts lead to a directory. The empty path leads to the one that holds all. -/
def isDirectory (files : FileList) (dir : List String) : Bool :=
  dir.isEmpty || files.any fun f => dir.isPrefixOf f.1 && f.1 ≠ dir

/-- The parts lead to a file. -/
def isFile (files : FileList) (path : List String) : Bool :=
  files.any fun f => f.1 = path

/-- Names have at most 255 bytes. -/
def isLongName (name : String) : Bool :=
  255 < name.utf8ByteSize

/-- Where a path leads that has left the directory. Nothing is known there but directories that lead
    further out. -/
def walkOutside : List String → Except ReadError ByteArray
  | [] => .error .isDirectory
  | s :: rest =>
    if s = "" ∨ s = "." ∨ s = ".." then walkOutside rest
    else if isLongName s then .error .nameTooLong
    else .error .notFound

/-- The content of the file to which segments lead from the path `here`. -/
def walk (files : FileList) (here : List String) : List String → Except ReadError ByteArray
  | [] =>
    match files.lookup here with
    | some content => .ok content
    | none => .error .isDirectory
  | s :: rest =>
    if !files.isDirectory here then .error .notDirectory
    else if s = "" ∨ s = "." then walk files here rest
    else if s = ".." then
      if here.isEmpty then walkOutside rest else walk files here.dropLast rest
    else if isLongName s then .error .nameTooLong
    else
      let next := here ++ [s]
      if files.isFile next || files.isDirectory next then walk files next rest
      else .error .notFound

/-- The content of the file at a path. A path has less than 4096 bytes. -/
def read (files : FileList) (path : String) : Except ReadError ByteArray :=
  if '\x00' ∈ path.toList then .error .nulInName
  else if path = "" then .error .notFound
  else if 4096 ≤ path.utf8ByteSize then .error .nameTooLong
  else if Path.isAbsolute path then walkOutside (Path.segments path)
  else walk files [] (Path.segments path)

end FileList

/-- The file system of files told by their paths. -/
def Files.ofList (files : List (String × ByteArray)) : Files :=
  ⟨FileList.read (files.map fun f => (Path.parts f.1, f.2))⟩

end StateDiagram

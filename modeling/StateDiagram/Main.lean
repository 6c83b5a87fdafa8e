import StateDiagram.Command.Run

/-!
# `Main` — the command line program

Reads the files that a request may need, then prints its outcome.
-/

namespace StateDiagram

/-- The code of an error of the operating system, which may be told as a negative number. -/
def osCode (code : UInt32) : Nat :=
  if code < 0x80000000 then code.toNat else (0 - code).toNat

/-- The code and the text of an error of the operating system. -/
def osError : IO.Error → Option (Nat × String)
  | .alreadyExists _ code details | .otherError code details | .resourceBusy code details
  | .resourceVanished code details | .unsupportedOperation code details
  | .hardwareFault code details | .unsatisfiedConstraints code details
  | .illegalOperation code details | .protocolError code details | .timeExpired code details
  | .interrupted _ code details | .noFileOrDirectory _ code details
  | .invalidArgument _ code details | .permissionDenied _ code details
  | .resourceExhausted _ code details | .inappropriateType _ code details
  | .noSuchThing _ code details => some (osCode code, details)
  | .unexpectedEof | .userError _ => none

/-- Why a file is not read. -/
def ReadError.ofError (e : IO.Error) : ReadError :=
  match osError e with
  | some (2, _) => .notFound
  | some (13, _) => .permissionDenied
  | some (20, _) => .notDirectory
  | some (21, _) => .isDirectory
  | some (36, _) => .nameTooLong
  | some (code, details) => .other (details ++ " (os error " ++ toString code ++ ")")
  | none => .other (toString e)

/-- The content of a file. -/
def readPath (path : String) : IO (Except ReadError ByteArray) := do
  if '\x00' ∈ path.toList then return .error .nulInName
  try return .ok (← IO.FS.readBinFile path)
  catch e => return .error (ReadError.ofError e)

/-- The contents of some files as a file system. -/
def readPaths (paths : List String) : IO Files := do
  let contents ← paths.mapM fun path => return (path, ← readPath path)
  return ⟨fun path => (contents.lookup path).getD (.error .notFound)⟩

end StateDiagram

open StateDiagram in
/-- Runs a command line. -/
def main (args : List String) : IO UInt32 := do
  let request := Request.ofArguments args
  let outcome := request.run (← readPaths request.paths)
  IO.print outcome.stdout
  IO.eprint outcome.stderr
  return outcome.exit.toUInt32

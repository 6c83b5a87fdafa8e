/-!
# `Files.Path` — names of files

A path is a sequence of parts with slashes between them. Empty parts and single dots mean nothing, two
dots lead back out.

## Contents

* `Path.segments`, `Path.parts` — what stands between slashes, and what of it means something;
* `Path.fileName?`, `Path.extension?` — the last part, and what follows its last dot;
* `Path.normal` — the path without the parts that mean nothing;
* `Path.adding?` — the path of a file whose name is longer.
-/

namespace StateDiagram.Path

/-- What stands between the slashes of a path. -/
def segments (path : String) : List String :=
  (path.toList.splitOn '/').map String.ofList

/-- Whether a path starts at the root of all files. -/
def isAbsolute (path : String) : Bool :=
  path.startsWith "/"

/-- The parts of a path that mean something. -/
def parts (path : String) : List String :=
  (segments path).filter fun s => s ≠ "" ∧ s ≠ "."

/-- The last part of a path, if it names something. -/
def fileName? (path : String) : Option String :=
  (parts path).getLast?.filter (· ≠ "..")

/-- What follows the last dot of a name. A name has none if it has no dot, or no other dot than one in
    front. -/
def nameExtension? (name : String) : Option String :=
  let after := (name.toList.reverse.takeWhile (· ≠ '.')).reverse
  if after.length + 1 < name.length then some (String.ofList after) else none

/-- What follows the last dot of the last part. -/
def extension? (path : String) : Option String :=
  (fileName? path).bind nameExtension?

/-- The path without parts that mean nothing. -/
def normal (path : String) : String :=
  (if isAbsolute path then "/" else "") ++ String.intercalate "/" (parts path)

/-- The path of the file whose name has `ending` after it. -/
def adding? (path ending : String) : Option String :=
  (fileName? path).map fun _ => normal path ++ ending

end StateDiagram.Path

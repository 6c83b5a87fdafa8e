import StateDiagram.Graph
import StateDiagram.Outline
import StateDiagram.Statement.Json

/-!
# `Formatter` — ways to write a program

## Contents

* `FormatError`, `FormatError.message` — why a program is not written, and the wording;
* `Formatter` — a named way to write programs;
* `Formatter.dot`, `Formatter.tree`, `Formatter.structured` — the three that every program has.
-/

namespace StateDiagram

/-- Why a program is not written. -/
inductive FormatError
  /-- No formatter has this name. -/
  | notFound (format : String)
  /-- A formatter gave up. -/
  | serialization (reason : String)
deriving DecidableEq, Repr

/-- The report of a format error. -/
def FormatError.message : FormatError → String
  | notFound format => "Format '" ++ format ++ "' not found"
  | serialization reason => "Serialization error: " ++ reason

/-- A named way to write programs. -/
structure Formatter where
  name : String
  description : String
  serialize : List Statement → Except FormatError String

namespace Formatter

/-- Graphs in the DOT language, with a given layout. -/
def dot (layout : Layout) : Formatter where
  name := "dot"
  description := "Graphviz digraph of each machine"
  serialize program := .ok (StateDiagram.dot layout program)

/-- The tree of the statements. -/
def tree : Formatter where
  name := "treeviz"
  description := "Box-drawing tree of the statements"
  serialize program := .ok (StateDiagram.tree program)

/-- The statements as structured text. -/
def structured : Formatter where
  name := "json"
  description := "Pretty-printed JSON of the statements"
  serialize program := .ok (StateDiagram.structured program)

end Formatter

end StateDiagram

import StateDiagram.Layout
import StateDiagram.Statement.Basic

/-!
# `Graph` — the graphs of a program

Every machine at the top level of a program is a graph: where it starts, which states accept, and an
edge for each target of each transition, all in the order of the program. Nothing else in a program
shows in its graphs.

Graphs are written in the DOT language. Names stand between quotes as they are, and each line is added
to those already written.

## Contents

* `inQuotes`, `edgeMark` — names and labels;
* `writeEdge`, `writeEdges` — the edges of a statement in the block of a state;
* `writeAccept`, `writePart` — the lines of a statement in the block of a machine;
* `writeMachine`, `dot` — the text of a machine, and of a program.
-/

namespace StateDiagram

/-- A name between quotes. -/
def inQuotes (name : String) : String :=
  "\"" ++ name ++ "\""

/-- What marks the edges of a label; nothing marks those of the empty one. -/
def edgeMark (label : String) : String :=
  if label = "" then "" else " [label=" ++ inQuotes label ++ "]"

/-- The text `output`, then the edge from state `source` to a target. -/
def writeEdge (source mark output target : String) : String :=
  output ++ (inQuotes source ++ " -> " ++ inQuotes (resolve source target) ++ mark ++ "\n")

/-- The text `output`, then the edges that a statement in the block of state `source` declares: one for
    each target of a transition. -/
def writeEdges (source output : String) : Statement → String
  | .transition label targets => targets.foldl (writeEdge source (edgeMark label)) output
  | _ => output

/-- The text `output`, then the double border of an accepting state. -/
def writeAccept (output state : String) : String :=
  output ++ (inQuotes state ++ " [shape=doublecircle];\n")

/-- The text `output`, then what a statement in the block of a machine declares. The start state has an
    arrow from a point. -/
def writePart (layout : Layout) (output : String) : Statement → String
  | .start state =>
    output ++ (layout.initialNode ++ " [shape=point];\n") ++
      (layout.initialNode ++ " -> " ++ inQuotes state ++ "\n")
  | .accept states => states.foldl writeAccept output
  | .stateDef name body => body.foldl (writeEdges name) output
  | _ => output

/-- The text `output`, then the graph of a machine: its name, the layout, its parts. -/
def writeMachine (layout : Layout) (output : String) : Statement → String
  | .machine name body =>
    body.foldl (writePart layout)
      (output ++ ("digraph " ++ inQuotes name ++ " \x7b\n") ++ ("rankdir=" ++ layout.rankdir ++ ";\n") ++
        ("size=" ++ inQuotes layout.size ++ "\n")) ++ "\x7d\n"
  | _ => output

/-- The text of a program's graphs. -/
def dot (layout : Layout) (program : List Statement) : String :=
  program.foldl (writeMachine layout) ""

end StateDiagram

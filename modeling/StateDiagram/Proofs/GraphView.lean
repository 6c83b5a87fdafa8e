import StateDiagram.Graph
import Mathlib.Data.List.Basic

/-!
# `Proofs.GraphView` — the graphs that are written

What is written of a program is a list of graphs, each with its name and its parts in order. The text is
written line by line; it is the text of these graphs, one after the other.

## Contents

* `Item`, `Graph` — the parts of a graph, and a graph;
* `Item.ofStatement`, `Graph.ofStatement?`, `graphs` — the graphs of a program;
* `Item.render`, `Graph.render`, `renderGraphs` — their text;
* `foldl_write`, `writeEdges_eq`, `writePart_eq`, `writeMachine_eq` — what each line is added for;
* `dot_eq` — a program's text is that of its graphs;
* `graphs_append`, `dot_append` — the graphs of two programs are the graphs of each, and so is the text.
-/

namespace StateDiagram

/-- A part of a graph. -/
inductive Item
  /-- The machine starts here. -/
  | entry (state : String)
  /-- The machine may end here. -/
  | accept (state : String)
  /-- The machine may go from one state to another. -/
  | edge (source target label : String)
deriving DecidableEq, Repr

/-- A machine's name and the parts of its graph in order. -/
structure Graph where
  name : String
  items : List Item
deriving DecidableEq, Repr

/-! ## The graphs of a program -/

namespace Item

/-- The edges that a statement in the block of state `source` declares: one for each target of a
    transition. -/
def edges (source : String) : Statement → List Item
  | .transition label targets => targets.map fun target => edge source (resolve source target) label
  | _ => []

/-- The parts that a statement in the block of a machine declares. -/
def ofStatement : Statement → List Item
  | .start state => [entry state]
  | .accept states => states.map accept
  | .stateDef name body => body.flatMap (edges name)
  | _ => []

end Item

/-- The graph of a machine. -/
def Graph.ofStatement? : Statement → Option Graph
  | .machine name body => some ⟨name, body.flatMap Item.ofStatement⟩
  | _ => none

/-- The graphs of a program, one for each machine at its top level. -/
def graphs (program : List Statement) : List Graph :=
  program.filterMap Graph.ofStatement?

/-- The graphs of two programs one after the other are those of each. -/
theorem graphs_append (p q : List Statement) : graphs (p ++ q) = graphs p ++ graphs q :=
  List.filterMap_append

/-! ## Their text -/

namespace Item

/-- The lines of a part. The entry is an arrow from a point to the start state, an accepting state has
    a double border, and an edge is marked with its label unless that is empty. -/
def render (layout : Layout) : Item → String
  | entry state =>
    layout.initialNode ++ " [shape=point];\n" ++
      layout.initialNode ++ " -> " ++ inQuotes state ++ "\n"
  | accept state => inQuotes state ++ " [shape=doublecircle];\n"
  | edge source target label =>
    inQuotes source ++ " -> " ++ inQuotes target ++
      (if label = "" then "" else " [label=" ++ inQuotes label ++ "]") ++ "\n"

end Item

/-- The text of a graph: its name, the layout, its parts. -/
def Graph.render (layout : Layout) (g : Graph) : String :=
  "digraph " ++ inQuotes g.name ++ " \x7b\n" ++
    "rankdir=" ++ layout.rankdir ++ ";\n" ++
    "size=" ++ inQuotes layout.size ++ "\n" ++
    String.join (g.items.map (Item.render layout)) ++ "\x7d\n"

/-- The text of several graphs, one after the other. -/
def renderGraphs (layout : Layout) (gs : List Graph) : String :=
  String.join (gs.map (Graph.render layout))

/-! ## The text that is written -/

/-- What the rounds of a loop add, one after the other, is what the loop adds. -/
theorem foldl_write {α : Type} {write : String → α → String} {lines : α → List String}
    (h : ∀ output x, write output x = output ++ String.join (lines x)) (output : String) (xs : List α) :
    xs.foldl write output = output ++ String.join (xs.flatMap lines) := by
  induction xs generalizing output with
  | nil => exact String.append_empty.symm
  | cons x xs ih =>
      rw [List.foldl_cons, ih, h, List.flatMap_cons, String.join_append, String.append_assoc]

/-- The same where each round adds one line. -/
theorem foldl_write_line {α : Type} {write : String → α → String} {line : α → String}
    (h : ∀ output x, write output x = output ++ line x) (output : String) (xs : List α) :
    xs.foldl write output = output ++ String.join (xs.map line) := by
  have hwrite (output : String) (x : α) : write output x = output ++ String.join [line x] := by
    rw [h, String.join_cons, String.join_nil, String.append_empty]
  rw [foldl_write hwrite, List.map_eq_flatMap]

theorem writeEdge_eq (layout : Layout) (source label output target : String) :
    writeEdge source (edgeMark label) output target =
      output ++ Item.render layout (.edge source (resolve source target) label) :=
  rfl

theorem writeAccept_eq (layout : Layout) (output state : String) :
    writeAccept output state = output ++ Item.render layout (.accept state) :=
  rfl

/-- The edges of a statement in the block of a state. -/
theorem writeEdges_eq (layout : Layout) (source output : String) (statement : Statement) :
    writeEdges source output statement =
      output ++ String.join ((Item.edges source statement).map (Item.render layout)) := by
  cases statement
  case transition label targets =>
    rw [writeEdges, foldl_write_line (writeEdge_eq layout source label), Item.edges, List.map_map]
    rfl
  all_goals exact String.append_empty.symm

/-- The parts of a statement in the block of a machine. -/
theorem writePart_eq (layout : Layout) (output : String) (statement : Statement) :
    writePart layout output statement =
      output ++ String.join ((Item.ofStatement statement).map (Item.render layout)) := by
  cases statement
  case start state =>
    rw [writePart, Item.ofStatement, List.map_cons, List.map_nil, String.join_cons, String.join_nil,
      String.append_empty, Item.render]
    simp only [String.append_assoc]
  case accept states =>
    rw [writePart, foldl_write_line (writeAccept_eq layout), Item.ofStatement, List.map_map]
    rfl
  case stateDef name body =>
    rw [writePart, foldl_write (writeEdges_eq layout name), Item.ofStatement, List.map_flatMap]
  all_goals exact String.append_empty.symm

/-- The graph of a machine. -/
theorem writeMachine_eq (layout : Layout) (output : String) (statement : Statement) :
    writeMachine layout output statement =
      output ++ String.join ((Graph.ofStatement? statement).toList.map (Graph.render layout)) := by
  cases statement
  case machine name body =>
    rw [writeMachine, foldl_write (writePart_eq layout), ← List.map_flatMap]
    show _ = output ++ String.join [Graph.render layout ⟨name, body.flatMap Item.ofStatement⟩]
    rw [String.join_cons, String.join_nil, String.append_empty]
    unfold Graph.render
    simp only [String.append_assoc]
  all_goals exact String.append_empty.symm

/-- **A program's text is that of its graphs.** -/
theorem dot_eq (layout : Layout) (program : List Statement) :
    dot layout program = renderGraphs layout (graphs program) := by
  rw [dot, foldl_write (writeMachine_eq layout), String.empty_append, renderGraphs, graphs,
    List.filterMap_eq_flatMap_toList, List.map_flatMap]

/-- The text of two programs one after the other is the text of each. -/
theorem dot_append (layout : Layout) (p q : List Statement) :
    dot layout (p ++ q) = dot layout p ++ dot layout q := by
  rw [dot_eq, dot_eq, dot_eq, graphs_append, renderGraphs, List.map_append, String.join_append]
  rfl

end StateDiagram

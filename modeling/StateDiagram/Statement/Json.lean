import StateDiagram.Json
import StateDiagram.Statement.Basic

/-!
# `Statement.Json` — programs as structured text

A statement is a record whose first field names its kind; its other fields are what its constructor
holds, in order.

## Contents

* `Statement.json`, `programJson` — the value of a statement, of a program;
* `structured` — the text of a program.
-/

namespace StateDiagram

/-- A list of names. -/
def Json.names (names : List String) : Json :=
  .arr (names.map .str)

mutual

/-- The record of a statement. -/
def Statement.json : Statement → Json
  | .beginMark => .obj [("type", .str "begin")]
  | .endMark => .obj [("type", .str "end")]
  | .machine name body =>
    .obj [("type", .str "defMachine"), ("name", .str name), ("body", .arr (statementsJson body))]
  | .start state => .obj [("type", .str "start"), ("state", .str state)]
  | .accept states => .obj [("type", .str "accept"), ("states", .names states)]
  | .stateDef name body =>
    .obj [("type", .str "stateDef"), ("name", .str name),
      ("transitions", .arr (statementsJson body))]
  | .transition label targets =>
    .obj [("type", .str "transition"), ("label", .str label), ("targets", .names targets)]

/-- The records of statements in order. -/
def statementsJson : List Statement → List Json
  | [] => []
  | s :: ss => s.json :: statementsJson ss

end

/-- The value of a program. -/
def programJson (program : List Statement) : Json :=
  .arr (statementsJson program)

/-- A program as structured text, laid out on many lines. -/
def structured (program : List Statement) : String :=
  (programJson program).pretty

end StateDiagram

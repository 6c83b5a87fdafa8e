import StateDiagram.Number.Binary64
import StateDiagram.Toml.Moment

/-!
# `Toml.Value` — what a settings file holds

## Contents

* `Toml` — the values of the TOML language;
* `Toml.Fields` — the fields of a table.
-/

namespace StateDiagram

/-- A value of a settings file. -/
inductive Toml
  | str (text : String)
  | int (n : Int)
  | float (x : Binary64)
  | bool (b : Bool)
  | moment (m : Moment)
  | arr (items : List Toml)
  | table (fields : List (String × Toml))
deriving Repr

/-- The fields of a table. -/
abbrev Toml.Fields := List (String × Toml)

end StateDiagram

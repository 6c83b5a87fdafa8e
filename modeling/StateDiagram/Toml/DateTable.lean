import StateDiagram.Toml.Scalar

/-!
# `Toml.DateTable` — tables that stand for dates

A table whose first key is `dateKey` is no table. It stands for the date or time that the text under
this key spells, whatever else is in it.

## Contents

* `dateKey`, `dateValue?` — the key, and what stands under it;
* `momentOf?` — the date or time that a value spells;
* `resolveDates` — a value with dates in place of the tables that stand for them.
-/

namespace StateDiagram.Toml

/-- The key of a date in a table that stands for one. -/
def dateKey : String := "$__toml_private_datetime"

/-- What stands under the date key, if that is the first key of a table. -/
def dateValue? : Fields → Option Toml
  | (key, v) :: _ => if key = dateKey then some v else none
  | [] => none

/-- The date or time that a value spells, which has to be a text of nothing else. Its offset may be
    anything up to a day. -/
def momentOf? : Toml → Option Moment
  | .str text =>
    match Read.moment .withinDay text.toList with
    | some (m, []) => some m
    | _ => none
  | _ => none

mutual

/-- The value with dates in place of the tables that stand for them; none if such a table has no date.
    The other fields of these tables do not matter. -/
def resolveDates : Toml → Option Toml
  | .arr items => (resolveItems items).map .arr
  | .table fields =>
    match dateValue? fields with
    | some v => (momentOf? v).map .moment
    | none => (resolveFields fields).map .table
  | v => some v

/-- The items of a list, each with its dates. -/
def resolveItems : List Toml → Option (List Toml)
  | [] => some []
  | v :: vs => do return (← resolveDates v) :: (← resolveItems vs)

/-- The fields of a table, each with its dates. -/
def resolveFields : List (String × Toml) → Option Fields
  | [] => some []
  | (key, v) :: fields => do return (key, ← resolveDates v) :: (← resolveFields fields)

end

end StateDiagram.Toml

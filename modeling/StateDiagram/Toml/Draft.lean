import StateDiagram.Toml.Value

/-!
# `Toml.Draft` — tables while they are read

A table may be written in several places, but no place may be written twice. A draft is a table that
remembers how each table in it came about, which decides where more may be added.

## Contents

* `TableOrigin`, `Draft` — tables under construction;
* `Draft.descend` — change the table at a path, making the tables on the way;
* `Draft.insert` — the value of a dotted key;
* `Draft.openTable`, `Draft.openElement` — the headers of tables and of tables in a list;
* `Draft.finish` — the value of a draft.
-/

namespace StateDiagram.Toml

/-- How a table came about. -/
inductive TableOrigin
  /-- It has a header of its own, or is the outermost. -/
  | written
  /-- The header of a table inside it implies it. -/
  | implied
  /-- A dotted key implies it. -/
  | dotted
deriving DecidableEq, Repr

/-- A table under construction, and what may stand in one. -/
inductive Draft
  | value (v : Toml)
  | table (origin : TableOrigin) (entries : List (String × Draft))
  /-- Tables in a list, each with a header: the last, and those before it from the last on. -/
  | tables (latest : Draft) (earlier : List Draft)

/-- What stands in a table under construction. -/
abbrev Entries := List (String × Draft)

/-- Put something under a key that is there. -/
def setEntry (entries : Entries) (key : String) (d : Draft) : Entries :=
  entries.map fun e => if e.1 = key then (key, d) else e

namespace Draft

/-- A table with nothing in it. -/
def empty : Draft := table .written []

/-- Change the table at a path. Tables on the way are made if missing; in a list of tables the way
    leads through the last. Dotted keys may not lead through a table with a header. -/
def descend (dotted : Bool) (f : TableOrigin → Entries → Option Draft) :
    List String → Draft → Option Draft
  | [], table origin entries => f origin entries
  | [], _ => none
  | key :: path, table origin entries =>
    match entries.lookup key with
    | none =>
      (descend dotted f path (table (if dotted then .dotted else .implied) [])).map fun d =>
        table origin (entries ++ [(key, d)])
    | some (value _) => none
    | some (tables latest earlier) =>
      (descend dotted f path latest).map fun d =>
        table origin (setEntry entries key (tables d earlier))
    | some (table inner found) =>
      if dotted && inner == .written then none
      else (descend dotted f path (table inner found)).map fun d =>
        table origin (setEntry entries key d)
  | _ :: _, _ => none

/-- The value of a key, dotted if `path` is not empty, in the table with the header `header`. A key
    has one value, and a dotted key adds only to tables made by dotted keys. -/
def insert (header path : List String) (key : String) (v : Toml) : Draft → Option Draft :=
  descend false (fun origin entries =>
    descend true (fun origin entries =>
      if (origin == .dotted) == path.isEmpty || (entries.lookup key).isSome then none
      else some (table origin (entries ++ [(key, value v)]))) path (table origin entries)) header

/-- The header of a table. The table may be there already if only headers of tables inside it imply
    it; its place among the keys is then a new one, the last. -/
def openTable (path : List String) (key : String) : Draft → Option Draft :=
  descend false (fun origin entries =>
    match entries.lookup key with
    | none => some (table origin (entries ++ [(key, empty)]))
    | some (table .implied found) =>
      some (table origin (entries.filter (·.1 ≠ key) ++ [(key, table .written found)]))
    | some _ => none) path

/-- The header of one more table in a list of tables. -/
def openElement (path : List String) (key : String) : Draft → Option Draft :=
  descend false (fun origin entries =>
    match entries.lookup key with
    | none => some (table origin (entries ++ [(key, tables empty [])]))
    | some (tables latest earlier) =>
      some (table origin (setEntry entries key (tables empty (latest :: earlier))))
    | some _ => none) path

mutual

/-- The value of a draft. -/
def finish : Draft → Toml
  | value v => v
  | table _ entries => .table (finishEntries entries)
  | tables latest earlier => .arr (finishList earlier [latest.finish])

/-- The fields of the entries of a table. -/
def finishEntries : List (String × Draft) → Fields
  | [] => []
  | (key, d) :: entries => (key, d.finish) :: finishEntries entries

/-- The values of drafts, the last first, before other values. -/
def finishList : List Draft → List Toml → List Toml
  | [], after => after
  | d :: ds, after => finishList ds (d.finish :: after)

end

end Draft

end StateDiagram.Toml

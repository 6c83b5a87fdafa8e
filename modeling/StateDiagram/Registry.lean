import Std.Data.TreeMap
import StateDiagram.Formatter

/-!
# `Registry` — formatters by name

A registry holds at most one formatter of each name: the last that was registered. Names are listed in
the order of their code points.

## Contents

* `Registry`, `Registry.empty`, `Registry.withLayout`, `Registry.standard` — registries;
* `Registry.register` — add a formatter, or replace the one of its name;
* `Registry.find?`, `Registry.contains`, `Registry.names` — what is registered;
* `Registry.serialize` — write a program in a format told by name;
* `find?_register` — what registering changes.
-/

namespace StateDiagram

/-- Formatters by name. -/
structure Registry where
  formatters : Std.TreeMap String Formatter

namespace Registry

/-- No formatters. -/
def empty : Registry := ⟨∅⟩

/-- Add a formatter; one of the same name is replaced. -/
def register (r : Registry) (f : Formatter) : Registry :=
  ⟨r.formatters.insert f.name f⟩

/-- The usual formatters, graphs with the given layout. -/
def withLayout (layout : Layout) : Registry :=
  ((empty.register (.dot layout)).register .tree).register .structured

/-- The usual formatters. -/
def standard : Registry := withLayout .standard

/-- The formatter of a name. -/
def find? (r : Registry) (name : String) : Option Formatter :=
  r.formatters[name]?

/-- Whether a name is registered. -/
def contains (r : Registry) (name : String) : Bool :=
  r.formatters.contains name

/-- The registered names in order. -/
def names (r : Registry) : List String :=
  r.formatters.keys

/-- Write a program in the format of a name. -/
def serialize (r : Registry) (program : List Statement) (format : String) :
    Except FormatError String :=
  match r.find? format with
  | some f => f.serialize program
  | none => .error (.notFound format)

@[simp] theorem find?_empty (name : String) : empty.find? name = none := by
  simp [find?, empty]

/-- Registering changes what is found under the formatter's own name and nothing else. -/
theorem find?_register (r : Registry) (f : Formatter) (name : String) :
    (r.register f).find? name = if f.name = name then some f else r.find? name := by
  simp [find?, register, Std.TreeMap.getElem?_insert]

/-- A name is registered if a formatter is found under it. -/
theorem contains_eq_isSome_find? (r : Registry) (name : String) :
    r.contains name = (r.find? name).isSome := by
  simp [contains, find?]

end Registry

end StateDiagram

import StateDiagram.Toml.Value

/-!
# `Settings.Value` — values of settings

Settings are a tree of values. What comes from a file remembers the file, as far as reports tell it:
lists, and tables in them.

## Contents

* `Setting`, `Setting.ofToml` — values, and the value of a file's value;
* `Setting.null`, `Setting.fields`, `Setting.items` — views;
* `lowered` — names do not tell small letters from capitals;
* `Setting.lookup`, `Setting.onField`, `Setting.onItem` — what stands in a value, and changing it;
* `Setting.assign` — put a value under a name; tables are merged.
-/

namespace StateDiagram

/-- A value of the settings. -/
inductive Setting
  | null
  | bool (b : Bool)
  | int (n : Int)
  | float (x : Binary64)
  | str (text : String)
  | arr (origin : Option String) (items : List Setting)
  | table (origin : Option String) (fields : List (String × Setting))
deriving Repr

instance : Inhabited Setting := ⟨.null⟩

namespace Setting

/-! ## Values of files -/

mutual

/-- The value of a file's value. Dates are texts. -/
def ofToml (origin : String) : Toml → Setting
  | .str text => str text
  | .int n => int n
  | .float x => float x
  | .bool b => bool b
  | .moment m => str m.text
  | .arr items => arr (some origin) (ofTomlItems origin items)
  | .table fields => table (some origin) (ofTomlFields origin fields)

/-- The values of a file's list. -/
def ofTomlItems (origin : String) : List Toml → List Setting
  | [] => []
  | v :: vs => ofToml origin v :: ofTomlItems origin vs

/-- The values of a file's table. -/
def ofTomlFields (origin : String) : List (String × Toml) → List (String × Setting)
  | [] => []
  | (key, v) :: fields => (key, ofToml origin v) :: ofTomlFields origin fields

end

/-! ## Looking into values -/

/-- A table that nobody wrote. -/
def emptyTable : Setting := table none []

/-- The value itself if it is a table; else an empty table. -/
def asTable : Setting → Option String × List (String × Setting)
  | table origin fields => (origin, fields)
  | _ => (none, [])

/-- The value itself if it is a list; else an empty list. -/
def asList : Setting → Option String × List Setting
  | arr origin items => (origin, items)
  | _ => (none, [])

/-- What stands under a name. -/
def lookup (name : String) (s : Setting) : Option Setting :=
  s.asTable.2.lookup name

/-! ## Changing values -/

/-- Put a value under a name in a list of fields, in place of what was there. -/
def setField (name : String) (v : Setting) : List (String × Setting) → List (String × Setting)
  | [] => [(name, v)]
  | (key, old) :: fields =>
    if key = name then (name, v) :: fields else (key, old) :: setField name v fields

/-- What stands under a name after it was set, and under the others. -/
theorem lookup_setField (name key : String) (v : Setting) (fields : List (String × Setting)) :
    (setField name v fields).lookup key = if key = name then some v else fields.lookup key := by
  have miss {a b : String} (h : ¬a = b) : (a == b) = false := beq_eq_false_iff_ne.mpr h
  induction fields with
  | nil => by_cases h : key = name <;> simp [setField, List.lookup_cons, h, miss]
  | cons f fields ih =>
    obtain ⟨k, old⟩ := f
    by_cases hk : k = name
    · subst hk
      by_cases h : key = k <;> simp [setField, List.lookup_cons, h, miss]
    · by_cases h : key = k
      · subst h
        simp [setField, hk]
      · simp [setField, List.lookup_cons, hk, h, miss, ih]

/-- A small letter for each capital. Only ASCII letters are ever asked for; the Kelvin sign is the one
    other character whose small letter is among them. -/
def lowered (name : String) : String :=
  String.ofList (name.toList.map fun c => if c = '\u212a' then 'k' else c.toLower)

/-- Change what stands under a name, or nothing if nothing does. What is no table becomes one. -/
def onField (name : String) (f : Setting → Setting) (s : Setting) : Setting :=
  let (origin, fields) := s.asTable
  table origin (setField (lowered name) (f ((fields.lookup (lowered name)).getD null)) fields)

/-- The place in a list of `size` items meant by a number; negative ones count from the end. -/
def place (n : Int) (size : Nat) : Nat :=
  if 0 ≤ n then n.toNat else size - n.natAbs

/-- Change an item. What is no list becomes one, and a list that is too short is made longer. -/
def onItem (n : Int) (f : Setting → Setting) (s : Setting) : Setting :=
  let (origin, items) := s.asList
  let i := place n items.length
  let padded := items ++ List.replicate (i + 1 - items.length) null
  arr origin (padded.modify i f)

mutual

/-- Put a value under a name. What is no table becomes one. A table is put into what is there, field by
    field; any other value replaces it. -/
def assign (name : String) (v : Setting) (s : Setting) : Setting :=
  match v with
  | table _ incoming =>
    let (origin, fields) := s.asTable
    let target := (fields.lookup (lowered name)).getD emptyTable
    table origin (setField (lowered name) (assignAll incoming target) fields)
  | v => s.onField name fun _ => v

/-- Put values under their names. -/
def assignAll : List (String × Setting) → Setting → Setting
  | [], s => s
  | (name, v) :: fields, s => assignAll fields (assign name v s)

end

end Setting

end StateDiagram

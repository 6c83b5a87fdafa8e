import StateDiagram.Files.Basic
import StateDiagram.Layout
import StateDiagram.Number.Shortest
import StateDiagram.Settings.Key
import StateDiagram.Text.Quoted
import StateDiagram.Toml.Document

/-!
# `Settings.Layers` — settings from defaults, files and overrides

Settings start from defaults. Files are laid over them in order, then overrides, of which the last for
a key counts; so an override wins over every file. What results is read as a layout.

## Contents

* `SettingsError`, `SettingsError.message` — why there is no layout;
* `Layers`, `Layers.withFile`, `Layers.withOverride` — what is laid over the defaults;
* `Layers.settings` — the settings of all layers;
* `Setting.layout` — the layout that settings tell;
* `Layers.layout` — both together.
-/

namespace StateDiagram

/-! ## What can be wrong -/

/-- Why there is no layout. -/
inductive SettingsError
  /-- An override's key is not formed like one. -/
  | malformedKey (key : String)
  /-- There is no such file. -/
  | missingFile (path : String)
  /-- The file cannot be read. -/
  | unreadable (e : ReadError)
  /-- The file breaks the rules of its language. -/
  | malformedFile (path : String)
  /-- What stands at a key is no text and has none. -/
  | notText (found : Setting) (key : String)
  /-- Nothing stands under a name that a layout needs. -/
  | missingField (name : String)
  /-- A list is too short for a layout. -/
  | tooShort (size : Nat)
  /-- What should be a layout is a single value. -/
  | notLayout (found : Setting)
deriving Repr

namespace Setting

/-- What a value is called in reports. -/
def describe : Setting → String
  | null => "unit value"
  | bool b => "boolean `" ++ (if b then "true" else "false") ++ "`"
  | int n => "integer `" ++ toString n ++ "`"
  | float x => "floating point `" ++ x.text ++ (if x.isWhole then ".0" else "") ++ "`"
  | str text => "string " ++ quoted text
  | arr .. => "sequence"
  | table .. => "map"

/-- The file that a list or a table comes from. -/
def origin? : Setting → Option String
  | arr origin _ | table origin _ => origin
  | _ => none

end Setting

/-- The report of why there is no layout. Of a malformed key and of a malformed file only the kind of report
    is kept, and what it is about: what is wrong there, and where, is not told. -/
def SettingsError.message : SettingsError → String
  | malformedKey key => "malformed key " ++ quoted key
  | missingFile path => "configuration file \"" ++ path ++ "\" not found"
  | unreadable e => e.message
  | malformedFile path => "TOML parse error in " ++ path
  | notText found key =>
    "invalid type: " ++ found.describe ++ ", expected a string for key `" ++ key ++ "`" ++
      (found.origin?.map (" in " ++ ·)).getD ""
  | missingField name => "missing field `" ++ name ++ "`"
  | tooShort size =>
    "invalid length " ++ toString size ++ ", expected struct GraphConfig with 3 elements"
  | notLayout found => "invalid type: " ++ found.describe ++ ", expected struct GraphConfig"

/-! ## Layers -/

/-- What is laid over the defaults: files in order, and values for keys in order. -/
structure Layers where
  files : List String
  overrides : List (Key × Setting)
deriving Repr

namespace Layers

/-- Nothing but the defaults. -/
def defaults : Layers := ⟨[], []⟩

/-- One more file. -/
def withFile (layers : Layers) (path : String) : Layers :=
  { layers with files := layers.files ++ [path] }

/-- One more value; an earlier one for the same key is forgotten. -/
def withOverride (layers : Layers) (key : String) (v : Setting) : Except SettingsError Layers :=
  match Key.ofString? key with
  | some k => .ok { layers with overrides := layers.overrides.filter (·.1 ≠ k) ++ [(k, v)] }
  | none => .error (.malformedKey key)

end Layers

/-! ## Files -/

/-- The path of a settings file. It may be told without its ending. -/
def settingsPath? (files : Files) (path : String) : Option String :=
  if files.isFile path then some path
  else (Path.adding? path ".toml").filter files.isFile

/-- The fields of a settings file, with their origin. -/
def settingsFields (files : Files) (path : String) :
    Except SettingsError (List (String × Setting)) :=
  match settingsPath? files path with
  | none => .error (.missingFile path)
  | some found =>
    match files.readText found with
    | .error e => .error (.unreadable e)
    | .ok text =>
      match Toml.ofText? text with
      | none => .error (.malformedFile (Path.normal found))
      | some fields => .ok (Setting.ofTomlFields (Path.normal found) fields)

/-- The key meant by a name at the top of a file: the name may itself be formed like a key. -/
def topKey (name : String) : Key :=
  (Key.ofString? name).getD [.field name]

/-- Put fields of a file where their names lead. -/
def Setting.putFields (fields : List (String × Setting)) (s : Setting) : Setting :=
  fields.foldl (fun s f => Setting.put f.2 (topKey f.1) s) s

/-- Lay files over settings. The first that cannot be had is the error. -/
def Setting.putFiles (files : Files) : List String → Setting → Except SettingsError Setting
  | [], s => .ok s
  | path :: paths, s =>
    match settingsFields files path with
    | .error e => .error e
    | .ok fields => putFiles files paths (s.putFields fields)

/-- Put values where their keys lead. -/
def Setting.putOverrides (overrides : List (Key × Setting)) (s : Setting) : Setting :=
  overrides.foldl (fun s o => Setting.put o.2 o.1 s) s

/-- The settings before any layer. -/
def defaultSettings : Setting :=
  .table none [("graph", .table none [("rankdir", .str Layout.standard.rankdir),
    ("size", .str Layout.standard.size), ("initial_node", .str Layout.standard.initialNode)])]

/-- The settings of all layers. -/
def Layers.settings (layers : Layers) (files : Files) : Except SettingsError Setting :=
  (defaultSettings.putFiles files layers.files).map (·.putOverrides layers.overrides)

/-! ## Reading a layout -/

namespace Setting

/-- The text of a single value. -/
def text? : Setting → Option String
  | str text => some text
  | bool b => some (if b then "true" else "false")
  | int n => some (toString n)
  | float x => some x.text
  | _ => none

/-- The text of the value at a key. -/
def textAt (key : String) (s : Setting) : Except SettingsError String :=
  match s.text? with
  | some text => .ok text
  | none => .error (.notText s key)

/-- The text under a name, if anything stands there. -/
def fieldText? (fields : List (String × Setting)) (name : String) :
    Except SettingsError (Option String) :=
  match fields.lookup name with
  | some s => (s.textAt ("graph." ++ name)).map some
  | none => .ok none

/-- Something that a layout needs. -/
def required (name : String) : Option String → Except SettingsError String
  | some text => .ok text
  | none => .error (.missingField name)

/-- The layout that the fields of a table tell. That a value is no text is reported before that
    another one is missing. -/
def layoutOfFields (fields : List (String × Setting)) : Except SettingsError Layout := do
  let rankdir ← fieldText? fields "rankdir"
  let size ← fieldText? fields "size"
  let initialNode ← fieldText? fields "initial_node"
  return ⟨← required "rankdir" rankdir, ← required "size" size,
    ← required "initial_node" initialNode⟩

/-- The text of the item at a place of a list. -/
def itemText (items : List Setting) (place : Nat) : Except SettingsError String :=
  match items[place]? with
  | some s => s.textAt ("graph[" ++ toString place ++ "]")
  | none => .error (.tooShort place)

/-- The layout that the items of a list tell, in the order direction, size, initial node. -/
def layoutOfItems (items : List Setting) : Except SettingsError Layout := do
  return ⟨← itemText items 0, ← itemText items 1, ← itemText items 2⟩

/-- The layout that settings tell under the name `graph`. -/
def layout (s : Setting) : Except SettingsError Layout :=
  match s.lookup "graph" with
  | none => .error (.missingField "graph")
  | some (table _ fields) => layoutOfFields fields
  | some (arr _ items) => layoutOfItems items
  | some found => .error (.notLayout found)

end Setting

/-- The layout of all layers. -/
def Layers.layout (layers : Layers) (files : Files) : Except SettingsError Layout :=
  match layers.settings files with
  | .error e => .error e
  | .ok s => s.layout

end StateDiagram

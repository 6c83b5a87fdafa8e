/-!
# `Json` — structured text

The part of JSON that listings of tokens and statements use: texts, counts, lists and records whose
fields keep their order.

## Contents

* `Json` — values;
* `Json.escape`, `Json.quote` — a text in quotes;
* `Json.compact` — a value on one line, without spaces;
* `Json.pretty` — a value on many lines, two spaces deeper for each level;
* `Json.prettyItems_eq_map`, `Json.prettyFields_eq_map` — lists are written item by item, and records
  field by field.
-/

namespace StateDiagram

/-- A structured value. -/
inductive Json
  | str (text : String)
  | num (n : Nat)
  | arr (items : List Json)
  | obj (fields : List (String × Json))
deriving Repr

namespace Json

/-! ## Texts -/

/-- A character inside quotes. Quotes, backslashes and control characters are escaped, the common
    control characters by a letter. -/
def escape (c : Char) : List Char :=
  match c with
  | '"' => ['\\', '"']
  | '\\' => ['\\', '\\']
  | '\n' => ['\\', 'n']
  | '\r' => ['\\', 'r']
  | '\t' => ['\\', 't']
  | '\x08' => ['\\', 'b']
  | '\x0c' => ['\\', 'f']
  | c =>
    if c.toNat < 0x20 then
      ['\\', 'u', '0', '0', Nat.digitChar (c.toNat / 16), Nat.digitChar (c.toNat % 16)]
    else [c]

/-- A text in quotes. -/
def quote (text : String) : String :=
  "\"" ++ String.ofList (text.toList.flatMap escape) ++ "\""

/-! ## One line -/

/-- Parts with commas between them. -/
def commas (parts : List String) : String :=
  String.intercalate "," parts

mutual

/-- A value without any white space between its parts. -/
def compact : Json → String
  | .str text => quote text
  | .num n => toString n
  | .arr items => "[" ++ commas (compactItems items) ++ "]"
  | .obj fields => "\x7b" ++ commas (compactFields fields) ++ "\x7d"

/-- The items of a list one by one. -/
def compactItems : List Json → List String
  | [] => []
  | item :: items => item.compact :: compactItems items

/-- The fields of a record one by one. -/
def compactFields : List (String × Json) → List String
  | [] => []
  | (key, value) :: fields => (quote key ++ ":" ++ value.compact) :: compactFields fields

end

/-! ## Many lines -/

/-- A new line, indented for a nesting depth. -/
def newline (depth : Nat) : String :=
  "\n" ++ String.ofList (List.replicate (2 * depth) ' ')

/-- What stands between the brackets of a value at a nesting depth: each part on a line of its own,
    one level deeper, and the closing bracket on a new line. No parts take no line. -/
def block (depth : Nat) (parts : List String) : String :=
  if parts.isEmpty then ""
  else commas (parts.map (newline (depth + 1) ++ ·)) ++ newline depth

mutual

/-- A value at a nesting depth, on many lines. -/
def prettyAt (depth : Nat) : Json → String
  | .str text => quote text
  | .num n => toString n
  | .arr items => "[" ++ block depth (prettyItems (depth + 1) items) ++ "]"
  | .obj fields => "\x7b" ++ block depth (prettyFields (depth + 1) fields) ++ "\x7d"

/-- The items of a list one by one. -/
def prettyItems (depth : Nat) : List Json → List String
  | [] => []
  | item :: items => item.prettyAt depth :: prettyItems depth items

/-- The fields of a record one by one. -/
def prettyFields (depth : Nat) : List (String × Json) → List String
  | [] => []
  | (key, value) :: fields =>
    (quote key ++ ": " ++ value.prettyAt depth) :: prettyFields depth fields

end

/-- A value laid out from the left margin. -/
def pretty (value : Json) : String :=
  value.prettyAt 0

/-- The items are written one by one. -/
theorem prettyItems_eq_map (depth : Nat) (items : List Json) :
    prettyItems depth items = items.map (prettyAt depth) := by
  induction items with
  | nil => rfl
  | cons item items ih => rw [prettyItems, ih, List.map_cons]

/-- A field is its key in quotes, and its value. -/
def prettyField (depth : Nat) (field : String × Json) : String :=
  quote field.1 ++ ": " ++ field.2.prettyAt depth

/-- The fields are written one by one. -/
theorem prettyFields_eq_map (depth : Nat) (fields : List (String × Json)) :
    prettyFields depth fields = fields.map (prettyField depth) := by
  induction fields with
  | nil => rfl
  | cons field fields ih => rw [prettyFields, ih, List.map_cons, prettyField]

end Json

end StateDiagram

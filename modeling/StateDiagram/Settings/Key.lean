import StateDiagram.Settings.Value

/-!
# `Settings.Key` — keys of settings

A key leads to a value: a name, then further names with dots before them and places in lists in square
brackets, as in `graph.size` and `graph[0]`.

## Contents

* `Step`, `Key` — the steps of a key;
* `Key.ofString?` — the key of a text;
* `Setting.put` — put a value where a key leads.
-/

namespace StateDiagram

/-- A step into a value. -/
inductive Step
  | field (name : String)
  | item (place : Int)
deriving DecidableEq, Repr

/-- A key, a step after the other. -/
abbrev Key := List Step

namespace Key

/-- What names in keys are made of: ASCII letters, digits, underscores, dashes and spaces. -/
def isNameChar (c : Char) : Bool :=
  c.isAlphanum || c == '_' || c == '-' || c == ' '

/-- The white space that may stand around a place in a list. -/
def isPadding (c : Char) : Bool :=
  c == ' ' || c == '\t'

/-- A name in front of a text. -/
def name? (cs : List Char) : Option (String × List Char) :=
  let name := cs.takeWhile isNameChar
  if name.isEmpty then none else some (String.ofList name, cs.dropWhile isNameChar)

/-- A place in front of a text, its opening bracket already taken and its closing one taken too. It
    fits 64 bits. -/
def place? (cs : List Char) : Option (Int × List Char) :=
  let cs := cs.dropWhile isPadding
  let (negative, cs) := match cs with
    | '-' :: rest => (true, rest)
    | cs => (false, cs)
  let digits := cs.takeWhile Char.isDigit
  let n : Int := digits.foldl (fun n c => n * 10 + (c.toNat - '0'.toNat)) 0
  let n := if negative then -n else n
  match (cs.dropWhile Char.isDigit).dropWhile isPadding with
  | ']' :: rest =>
    if digits ≠ [] ∧ Int64.minValue.toInt ≤ n ∧ n ≤ Int64.maxValue.toInt then some (n, rest)
    else none
  | _ => none

/-- The steps after the first name. Each takes at least one character, which `fuel` counts. -/
def steps : (fuel : Nat) → List Char → Option Key
  | _, [] => some []
  | fuel + 1, '.' :: cs => do
    let (name, rest) ← name? cs
    (steps fuel rest).map (.field name :: ·)
  | fuel + 1, '[' :: cs => do
    let (n, rest) ← place? cs
    (steps fuel rest).map (.item n :: ·)
  | _, _ => none

/-- The key of a text; none if it is not formed like one. -/
def ofString? (text : String) : Option Key := do
  let (name, rest) ← name? text.toList
  (steps rest.length rest).map (.field name :: ·)

end Key

/-- Put a value where a key leads, making tables and lists on the way. -/
def Setting.put (v : Setting) : Key → Setting → Setting
  | [], _ => v
  | [.field name], s => assign name v s
  | .field name :: key, s => s.onField name (put v key)
  | .item n :: key, s => s.onItem n (put v key)

end StateDiagram

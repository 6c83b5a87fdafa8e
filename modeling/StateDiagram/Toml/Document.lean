import StateDiagram.Toml.DateTable
import StateDiagram.Toml.Draft

/-!
# `Toml.Document` — reading a settings file

A file is read line by line into a draft: a header says which table the keys below it belong to. A
file that breaks a rule of the language is refused as a whole.

## Contents

* `Read.value`, `Read.items`, `Read.pairs` — values with and without parts;
* `Read.header`, `Read.keyValue` — the two sorts of lines;
* `Read.lines` — all lines;
* `Toml.ofText?` — the fields of a file.
-/

namespace StateDiagram.Toml

namespace Read

/-! ## Values

Lists and inline tables nest at most 79 deep: that is `depth`. Every call takes one unit of `fuel`, of
which twice the length of the text is always enough.
-/

mutual

/-- A value. -/
def value : (fuel depth : Nat) → Reader Toml
  | 0, _, _ => none
  | _ + 1, 0, '[' :: _ => none
  | _ + 1, 0, '\x7b' :: _ => none
  | fuel + 1, depth + 1, '[' :: rest => items fuel depth [] rest
  | fuel + 1, depth + 1, '\x7b' :: rest =>
    match skipSpaces rest with
    | '\x7d' :: rest => some (.table [], rest)
    | rest => pairs fuel depth .empty rest
  | _ + 1, _, cs => scalar cs

/-- The rest of a list, after some items and the comma behind them. -/
def items : (fuel depth : Nat) → List Toml → Reader Toml
  | 0, _, _, _ => none
  | fuel + 1, depth, taken, cs =>
    match skipTrivia cs with
    | ']' :: rest => some (.arr taken.reverse, rest)
    | cs => do
      let (v, rest) ← value fuel depth cs
      match skipTrivia rest with
      | ',' :: rest => items fuel depth (v :: taken) rest
      | ']' :: rest => some (.arr (v :: taken).reverse, rest)
      | _ => none

/-- The rest of an inline table, after some pairs and the comma behind them. It stands on one line
    and does not end in a comma. -/
def pairs : (fuel depth : Nat) → Draft → Reader Toml
  | 0, _, _, _ => none
  | fuel + 1, depth, draft, cs => do
    let (path, rest) ← key cs
    let rest ← expectChar '=' rest
    let (v, rest) ← value fuel depth (skipSpaces rest)
    let last ← path.getLast?
    let draft ← draft.insert [] path.dropLast last v
    match skipSpaces rest with
    | ',' :: rest => pairs fuel depth draft rest
    | '\x7d' :: rest => some (draft.finish, rest)
    | _ => none

end

/-! ## Lines -/

/-- A draft and the header of the table that is being filled. -/
abbrev Progress := List String × Draft

/-- The rest of a header line, its first bracket already taken. -/
def header (root : Draft) : Reader Progress
  | '[' :: cs => do
    let (path, rest) ← key cs
    let rest ← expectChar ']' rest
    let rest ← expectChar ']' rest
    let root ← root.openElement path.dropLast (← path.getLast?)
    some ((path, root), rest)
  | cs => do
    let (path, rest) ← key cs
    let rest ← expectChar ']' rest
    let root ← root.openTable path.dropLast (← path.getLast?)
    some ((path, root), rest)

/-- A key and its value, on one line unless the value goes on. -/
def keyValue (here : List String) (root : Draft) : Reader Progress := fun cs => do
  let (path, rest) ← key cs
  let rest ← expectChar '=' rest
  let (v, rest) ← value (2 * rest.length + 2) 79 (skipSpaces rest)
  let root ← root.insert here path.dropLast (← path.getLast?) v
  some ((here, root), rest)

/-- All lines that are left. Each takes at least one character, which `fuel` counts. -/
def lines : (fuel : Nat) → List String → Draft → List Char → Option Draft
  | 0, _, _, _ => none
  | fuel + 1, here, root, cs =>
    match skipSpaces cs with
    | [] => some root
    | '[' :: rest => do
      let ((here, root), rest) ← header root rest
      lines fuel here root (← lineEnd? rest)
    | c :: rest =>
      if c = '#' ∨ c = '\n' ∨ c = '\r' then do lines fuel here root (← lineEnd? (c :: rest))
      else do
        let ((here, root), rest) ← keyValue here root (c :: rest)
        lines fuel here root (← lineEnd? rest)

end Read

/-- The text without a byte order mark in front. -/
def dropMark : List Char → List Char
  | '\ufeff' :: rest => rest
  | cs => cs

/-- The fields of a settings file; none if it breaks a rule of the language or stands for a date. -/
def ofText? (text : String) : Option Fields :=
  let cs := dropMark text.toList
  match (Read.lines (cs.length + 1) [] .empty cs).bind (·.finish.resolveDates) with
  | some (.table fields) => some fields
  | _ => none

end StateDiagram.Toml

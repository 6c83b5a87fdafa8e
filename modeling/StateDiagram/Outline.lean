import StateDiagram.Statement.Basic

/-!
# `Outline` — programs as trees

A program's statements from top to bottom, each with its place in the tree: for every level around it
whether more follows there, and whether more follows beside it. An outline is drawn with lines that
lead down from each block to what it holds.

## Contents

* `Row` — a statement and its place;
* `outlineBelow`, `outline` — the rows of a program, blocks before what they hold;
* `Row.depth`, `Row.render` — how deep a statement stands, and its line;
* `abbreviate` — a label that is not too long for a line;
* `tree` — the drawing of a program.
-/

namespace StateDiagram

/-- A statement and its place in a tree. -/
structure Row where
  /-- For each block around it, the outermost first: does another statement follow the block? -/
  guides : List Bool
  /-- No other statement follows on the same level. -/
  isLast : Bool
  statement : Statement
deriving DecidableEq, Repr

/-! ## Rows -/

mutual

/-- The rows of one statement: its own, and those of what it holds. -/
def Statement.outlineAt (guides : List Bool) (isLast : Bool) : Statement → List Row
  | .machine name body =>
    ⟨guides, isLast, .machine name body⟩ :: outlineBelow (guides ++ [!isLast]) body
  | .stateDef name body =>
    ⟨guides, isLast, .stateDef name body⟩ :: outlineBelow (guides ++ [!isLast]) body
  | .beginMark => [⟨guides, isLast, .beginMark⟩]
  | .endMark => [⟨guides, isLast, .endMark⟩]
  | .start state => [⟨guides, isLast, .start state⟩]
  | .accept states => [⟨guides, isLast, .accept states⟩]
  | .transition label targets => [⟨guides, isLast, .transition label targets⟩]

/-- The rows of statements on one level. -/
def outlineBelow (guides : List Bool) : List Statement → List Row
  | [] => []
  | s :: ss => s.outlineAt guides ss.isEmpty ++ outlineBelow guides ss

end

/-- The rows of a program. -/
def outline (program : List Statement) : List Row :=
  outlineBelow [] program

/-- A statement's rows are its own and those of its children. -/
theorem Statement.outlineAt_eq (guides : List Bool) (isLast : Bool) (s : Statement) :
    s.outlineAt guides isLast =
      ⟨guides, isLast, s⟩ :: outlineBelow (guides ++ [!isLast]) s.children := by
  cases s <;> simp [outlineAt, outlineBelow, children]

/-! ## Lines -/

/-- A text cut to its first `limit` characters, with dots for what is cut off. -/
def abbreviate (limit : Nat) (text : String) : String :=
  if limit < text.length then String.ofList (text.toList.take limit) ++ "..." else text

namespace Row

/-- The number of blocks around a statement. -/
def depth (r : Row) : Nat := r.guides.length

/-- What a level shows beside a statement inside it. -/
def guide (more : Bool) : String :=
  if more then "│ " else "  "

/-- What leads to a statement. -/
def connector (isLast : Bool) : String :=
  if isLast then "└─" else "├─"

/-- The kind of a statement and its label, if it has one, cut to thirty characters. -/
def caption (s : Statement) : String :=
  if s.label = "" then s.nodeType else s.nodeType ++ ": " ++ abbreviate 30 s.label

/-- The line of a statement. -/
def render (r : Row) : String :=
  String.join (r.guides.map guide) ++ connector r.isLast ++ " " ++ caption r.statement ++ "\n"

end Row

/-- The drawing of a program, a line for each statement. -/
def tree (program : List Statement) : String :=
  String.join ((outline program).map Row.render)

end StateDiagram

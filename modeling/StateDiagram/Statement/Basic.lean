/-!
# `Statement.Basic` — programs

A program is a list of statements; blocks hold statements in turn. The type allows more than the
grammar does: any text as a name, and a transition outside a state block.

## Contents

* `loopTarget`, `isLoop`, `resolve` — the target that means the state itself;
* `Statement` — statements;
* `Statement.nodeType`, `Statement.label`, `Statement.children` — what a reader is shown of one.
-/

namespace StateDiagram

/-- The target of a transition that leads back to its own state. -/
def loopTarget : String := "SELF"

/-- Whether a target leads back to its own state. -/
def isLoop (target : String) : Bool :=
  target == loopTarget

/-- The state meant by a target in the block of state `source`. -/
def resolve (source target : String) : String :=
  if isLoop target then source else target

/-- A statement. -/
inductive Statement
  /-- The marker `BEGIN`. -/
  | beginMark
  /-- The marker `END`. -/
  | endMark
  /-- A machine and what its block holds. -/
  | machine (name : String) (body : List Statement)
  /-- The state a machine starts in. -/
  | start (state : String)
  /-- Accepting states, as declared. -/
  | accept (states : List String)
  /-- A state and what its block holds, mostly its transitions. -/
  | stateDef (name : String) (body : List Statement)
  /-- Transitions under one label to each of the targets. -/
  | transition (label : String) (targets : List String)
deriving Repr

namespace Statement

/-! ## Equality is decidable -/

mutual

/-- Whether two statements are equal. -/
def decEq (s t : Statement) : Decidable (s = t) := by
  cases s <;> cases t
  case machine.machine m b n c =>
    exact match decEqList b c, String.decEq m n with
      | .isTrue hb, .isTrue hm => .isTrue (by rw [hb, hm])
      | .isFalse hb, _ => .isFalse fun h => hb (by injection h)
      | _, .isFalse hm => .isFalse fun h => hm (by injection h)
  case stateDef.stateDef m b n c =>
    exact match decEqList b c, String.decEq m n with
      | .isTrue hb, .isTrue hm => .isTrue (by rw [hb, hm])
      | .isFalse hb, _ => .isFalse fun h => hb (by injection h)
      | _, .isFalse hm => .isFalse fun h => hm (by injection h)
  case start.start x y => exact decidable_of_iff (x = y) (by simp)
  case accept.accept x y => exact decidable_of_iff (x = y) (by simp)
  case transition.transition a x b y => exact decidable_of_iff (a = b ∧ x = y) (by simp)
  case beginMark.beginMark => exact .isTrue rfl
  case endMark.endMark => exact .isTrue rfl
  all_goals exact .isFalse (by simp)

/-- Whether two lists of statements are equal. -/
def decEqList : (ss ts : List Statement) → Decidable (ss = ts)
  | [], [] => .isTrue rfl
  | [], _ :: _ => .isFalse (by simp)
  | _ :: _, [] => .isFalse (by simp)
  | s :: ss, t :: ts =>
    match decEq s t, decEqList ss ts with
    | .isTrue h, .isTrue hs => .isTrue (by rw [h, hs])
    | .isFalse h, _ => .isFalse fun e => h (by injection e)
    | _, .isFalse hs => .isFalse fun e => hs (by injection e)

end

instance : DecidableEq Statement := decEq

/-! ## What a reader is shown -/

/-- The kind of a statement. -/
def nodeType : Statement → String
  | beginMark => "begin"
  | endMark => "end"
  | machine .. => "def-machine"
  | start _ => "start"
  | accept _ => "accept"
  | stateDef .. => "state-def"
  | transition .. => "transition"

/-- A list of names in square brackets. -/
def bracketed (names : List String) : String :=
  "[" ++ String.intercalate ", " names ++ "]"

/-- A statement's own data on one line, without what its block holds. -/
def label : Statement → String
  | beginMark | endMark => ""
  | machine name _ | stateDef name _ => name
  | start state => state
  | accept states => bracketed states
  | transition label targets => label ++ " -> " ++ bracketed targets

/-- What the block of a statement holds; nothing for a statement without a block. -/
def children : Statement → List Statement
  | machine _ body | stateDef _ body => body
  | _ => []

end Statement

end StateDiagram

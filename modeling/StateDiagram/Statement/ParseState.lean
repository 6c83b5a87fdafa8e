import StateDiagram.Statement.Basic
import StateDiagram.Statement.SyntaxError

/-!
# `Statement.ParseState` — reading half done

What is known of a program when some of its tokens have been read: a stack of open blocks, the
statements of the innermost one so far, and a point of the grammar.

## Contents

* `Rules` — the nesting limit and the comparison of categories, which may vary;
* `ListOwner`, `BlockHead`, `Block` — a list, a block that is not yet closed;
* `Point`, `Point.fault` — the points of the grammar, and what is wrong where reading stops at one;
* `ParseState` — all of it, with the moves from point to point.
-/

namespace StateDiagram

/-! ## Rules -/

/-- What may vary between readings of one grammar. -/
structure Rules where
  /-- How many blocks may be open at once; no limit if none is given. -/
  limit : Option Nat
  /-- Whether a token of the second category will do where the grammar asks for the first. -/
  admits : Kind → Kind → Bool

namespace Rules

/-- The language's own rules: 256 blocks, and each category for itself. -/
def standard : Rules := ⟨some 256, fun wanted found => wanted == found⟩

/-- The language without its nesting limit. -/
def unlimited : Rules := { standard with limit := none }

/-- The language with states and identifiers told apart by the grammar alone: each of the two
    categories will do for the other. -/
def anyName : Rules :=
  { standard with admits := fun wanted found => wanted == found || wanted.isName && found.isName }

end Rules

/-! ## Lists and blocks -/

/-- The statement that owns a list of states. -/
inductive ListOwner
  | accept
  | transition (label : String)
deriving DecidableEq, Repr

/-- The head of an open block. -/
inductive BlockHead
  | machine (name : String)
  | state (name : String)
deriving DecidableEq, Repr

/-- An open block: its head, and the statements before it in the block around it, latest first. -/
structure Block where
  head : BlockHead
  before : List Statement
deriving DecidableEq, Repr

/-! ## Points of the grammar -/

/-- The points of the grammar between two tokens. -/
inductive Point
  /-- Between statements. -/
  | statement
  /-- After `def`. -/
  | machineName
  /-- After the name of a machine. -/
  | machineBrace (name : String)
  /-- After the keyword of a state block. -/
  | stateName
  /-- After the name of a state block. -/
  | stateArrow (name : String)
  /-- After the arrow of a state block. -/
  | stateBrace (name : String)
  /-- After `START`. -/
  | startArrow
  /-- After the arrow of `START`. -/
  | startState
  /-- After `ACCEPT` or the label of a transition. -/
  | listArrow (owner : ListOwner)
  /-- After the arrow of a list's owner. -/
  | listBracket (owner : ListOwner)
  /-- After the opening bracket or a comma of a list; the states so far, latest first. -/
  | listState (owner : ListOwner) (states : List String)
  /-- After a state of a list; the states so far, latest first. -/
  | listSeparator (owner : ListOwner) (states : List String)
  /-- Before the semicolon of a statement. -/
  | semicolon (done : Statement)
deriving DecidableEq, Repr

/-- Reading half done: open blocks from the innermost out, the statements of the innermost so far, latest
    first, and the point of the grammar. -/
structure ParseState where
  blocks : List Block
  body : List Statement
  point : Point
deriving DecidableEq, Repr

/-- Nothing has been read. -/
def ParseState.initial : ParseState := ⟨[], [], .statement⟩

namespace ListOwner

/-- The statement of an owner with its states in order. -/
def statement (states : List String) : ListOwner → Statement
  | accept => .accept states
  | transition label => .transition label states

end ListOwner

namespace BlockHead

/-- The statement of a block with what it holds in order. -/
def statement (body : List Statement) : BlockHead → Statement
  | machine name => .machine name body
  | state name => .stateDef name body

/-- Transitions stand in state blocks only. -/
def allowsTransitions : BlockHead → Bool
  | machine _ => false
  | state _ => true

end BlockHead

/-- What is expected before the semicolon of a statement. Markers have none. -/
def Statement.endExpectation : Statement → Expectation
  | .machine .. => .machineEnd
  | .stateDef .. => .stateEnd
  | .accept _ => .acceptEnd
  | .transition .. => .transitionEnd
  | .start _ | .beginMark | .endMark => .startEnd

/-- What is wrong at a point when the grammar does not allow the next token, or when there is none. -/
def Point.fault (next : Option Token) : Point → Fault
  | statement =>
    match next with
    | some t => .unexpectedToken t.value
    | none => .unexpectedEnd
  | machineName => .expected .machineName
  | machineBrace _ => .expected .machineBrace
  | stateName => .expected .stateName
  | stateArrow _ => .expected .stateArrow
  | stateBrace _ => .expected .stateBrace
  | startArrow => .expected .startArrow
  | startState => .expected .startState
  | listArrow .accept => .expected .acceptArrow
  | listArrow (.transition _) => .expected .transitionArrow
  | listBracket .accept => .expected .acceptList
  | listBracket (.transition _) => .expected .transitionList
  | listState .. => .expected .listState
  | listSeparator .. => .expected .listSeparator
  | semicolon done => .expected done.endExpectation

namespace ParseState

/-- Go on at another point of the grammar. -/
def goTo (s : ParseState) (point : Point) : ParseState :=
  { s with point }

/-- A statement is complete. -/
def push (s : ParseState) (done : Statement) : ParseState :=
  ⟨s.blocks, done :: s.body, .statement⟩

/-- The brace of a block opens. -/
def openBlock (s : ParseState) (head : BlockHead) : ParseState :=
  ⟨⟨head, s.body⟩ :: s.blocks, [], .statement⟩

/-- The closing bracket of a list. -/
def closeList (s : ParseState) (owner : ListOwner) (states : List String) : ParseState :=
  s.goTo (.semicolon (owner.statement states.reverse))

end ParseState

end StateDiagram

import StateDiagram.Token.Basic

/-!
# `Statement.SyntaxError` — what can be wrong with a token list

A token list is read up to the first token that the grammar does not allow. The error tells what was
expected there, the token, and its place; if the tokens end too early it tells where they end.

## Contents

* `Expectation` — what the grammar wants at a point where it wants one thing;
* `Fault` — what is wrong;
* `SyntaxError` — a fault and where it shows;
* `Expectation.message`, `Fault.message`, `SyntaxError.message` — the wording.
-/

namespace StateDiagram

/-- What the grammar wants at a point where it wants one thing. -/
inductive Expectation
  | machineName
  | machineBrace
  | machineEnd
  | stateName
  | stateArrow
  | stateBrace
  | stateEnd
  | startArrow
  | startState
  | startEnd
  | acceptArrow
  | acceptList
  | acceptEnd
  | transitionArrow
  | transitionList
  | transitionEnd
  | listState
  | listSeparator
deriving DecidableEq, Repr

/-- The wording of what was expected. -/
def Expectation.message : Expectation → String
  | machineName => "Expected identifier after def"
  | machineBrace => "Expected \x7b after identifier"
  | machineEnd => "Expected ; at the end of def block"
  | stateName => "Expected identifier after STATE"
  | stateArrow => "Expected -> after identifier"
  | stateBrace => "Expected \x7b after ->"
  | stateEnd => "Expected ; at the end of state block"
  | startArrow => "Expected -> after START"
  | startState => "Expected state after ->"
  | startEnd => "Expected ; at the end of statement"
  | acceptArrow => "Expected -> after ACCEPT"
  | acceptList => "Expected [ after ->"
  | acceptEnd => "Expected ; at the end of ACCEPT statement"
  | transitionArrow => "Expected -> after identifier"
  | transitionList => "Expected [ after transition"
  | transitionEnd => "Expected ; at the end of transition"
  | listState => "Expected state inside []"
  | listSeparator => "Expected , or ] after state"

/-- What is wrong with a token list. -/
inductive Fault
  /-- The grammar wants something else. -/
  | expected (what : Expectation)
  /-- No statement starts with this token. -/
  | unexpectedToken (value : String)
  /-- The input ends where a block wants a statement or its closing brace. -/
  | unexpectedEnd
  /-- One more block than may be open at once. -/
  | tooDeep (limit : Nat)
deriving DecidableEq, Repr

/-- The wording of a fault, without its place. -/
def Fault.message : Fault → String
  | expected what => what.message
  | unexpectedToken value => "Unexpected token " ++ value
  | unexpectedEnd => "Unexpected end of input"
  | tooDeep limit => "Blocks nested deeper than " ++ toString limit ++ " levels"

/-- A fault, the token at which it shows, and its place. There is no token when the input ended. -/
structure SyntaxError where
  fault : Fault
  found : Option String
  position : Position
deriving DecidableEq, Repr

namespace SyntaxError

/-- The report of a syntax error. -/
def message (e : SyntaxError) : String :=
  e.fault.message ++ " at row " ++ toString e.position.row ++ ", col " ++ toString e.position.col

/-- The input ended too early. -/
def isEndOfInput (e : SyntaxError) : Bool :=
  e.found.isNone

/-- A fault that shows at a token. -/
def atToken (fault : Fault) (t : Token) : SyntaxError :=
  ⟨fault, some t.value, t.position⟩

/-- A fault that shows where the token list `ts` ends. -/
def atEnd (fault : Fault) (ts : List Token) : SyntaxError :=
  ⟨fault, none, (ts.getLast?.map Token.endPosition).getD .origin⟩

end SyntaxError

end StateDiagram

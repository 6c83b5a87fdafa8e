import StateDiagram.Proofs.FirstError

/-!
# `Proofs.Descent` — the parser as recursive descent

The grammar can also be read by rules that call each other: a rule for each kind of statement, loops
over lists and over what blocks hold, a place in the token list and the number of open blocks. Here
are those rules. Nothing in them says that they end: a loop goes on until it sees what closes it, and
a statement calls itself through the blocks in it. So loops run on fuel, a round of a loop and all that
is read in it on one unit less than the loop, and a loop without fuel gives nothing at all.

A descent counts what it does and notes each moment at which a counter changes, a rule is called or
returns, or a round of a loop begins or is over, so that what is said of all of its states is said of
what it notes.

## Contents

* `Production`, `Counters`, `Event`, `Trail` — the rules, what is counted, what is noted;
* `Event.effect`, `countersAfter` — the counters that the moments make;
* `Descent` — what may fail, and may give nothing;
* `Descent.peek`, `Descent.advance`, `Descent.accepts`, `Descent.expect`, `Descent.expectOneOf` —
  tokens;
* `Descent.outOfFuel`, `Descent.call`, `Descent.round` — loops that may not go on, rules, rounds;
* `Descent.startRule`, `Descent.listRule`, `Descent.statement`, `Descent.program` — the grammar;
* `descend` — the descent over a token list.
-/

namespace StateDiagram

/-! ## What is counted and noted -/

/-- The rules that are called. -/
inductive Production
  | statement
  | machine
  | stateDef
  | start
  | accept
  | transition
  | members
deriving DecidableEq, Repr

/-- The rules that read a block. -/
def Production.isBlock : Production → Bool
  | machine | stateDef => true
  | _ => false

/-- The rule for a statement with a list. -/
def ListOwner.production : ListOwner → Production
  | accept => .accept
  | transition _ => .transition

/-- What a descent counts. The first two numbers steer it, the others are only kept. -/
structure Counters where
  /-- The tokens read. -/
  position : Nat
  /-- The nesting of blocks. -/
  depth : Nat
  /-- The rounds begun of all loops. -/
  rounds : Nat
  /-- The rules for blocks that have been called and have not returned. -/
  active : Nat
deriving DecidableEq, Repr

/-- A moment of a descent. The counters are those just before it for a token and for the depth, and
    else those just after it. -/
inductive Event
  /-- A token is about to be passed. -/
  | reads (c : Counters)
  /-- The depth is about to grow. -/
  | raises (c : Counters)
  /-- The depth is about to shrink. -/
  | lowers (c : Counters)
  /-- A rule has been called. -/
  | calls (rule : Production) (c : Counters)
  /-- A rule has returned. The counters before are those of its caller. -/
  | returns (rule : Production) (before after : Counters)
  /-- A round of a loop has begun. -/
  | begins (c : Counters)
  /-- A round of a loop is over. -/
  | ends (before after : Counters)
deriving DecidableEq, Repr

/-- What a moment does to the counters. -/
def Event.effect : Event → Counters → Counters
  | reads _, c => { c with position := c.position + 1 }
  | raises _, c => { c with depth := c.depth + 1 }
  | lowers _, c => { c with depth := c.depth - 1 }
  | calls rule _, c => { c with active := c.active + rule.isBlock.toNat }
  | returns rule _ _, c => { c with active := c.active - rule.isBlock.toNat }
  | begins _, c => { c with rounds := c.rounds + 1 }
  | ends _ _, c => c

/-- The counters after some moments, latest first. -/
def countersAfter : List Event → Counters
  | [] => ⟨0, 0, 0, 0⟩
  | event :: events => event.effect (countersAfter events)

/-- The counters as they are, and the moments so far, latest first. -/
structure Trail where
  now : Counters
  events : List Event
deriving DecidableEq, Repr

namespace Trail

/-- Nothing has been read. -/
def initial : Trail := ⟨⟨0, 0, 0, 0⟩, []⟩

/-- Note a moment, with what it does. -/
def note (event : Event) (p : Trail) : Trail :=
  ⟨event.effect p.now, event :: p.events⟩

/-- Pass a token. -/
def advance (p : Trail) : Trail :=
  p.note (.reads p.now)

/-- A block more. -/
def raise (p : Trail) : Trail :=
  p.note (.raises p.now)

/-- A block less. -/
def lower (p : Trail) : Trail :=
  p.note (.lowers p.now)

/-- Call a rule. -/
def call (rule : Production) (p : Trail) : Trail :=
  p.note (.calls rule { p.now with active := p.now.active + rule.isBlock.toNat })

/-- Return from a rule, to a caller with the counters `before`. -/
def back (rule : Production) (before : Counters) (p : Trail) : Trail :=
  p.note (.returns rule before { p.now with active := p.now.active - rule.isBlock.toNat })

/-- Begin a round. -/
def begin (p : Trail) : Trail :=
  p.note (.begins { p.now with rounds := p.now.rounds + 1 })

/-- A round that began with the counters `before` is over. -/
def finish (before : Counters) (p : Trail) : Trail :=
  p.note (.ends before p.now)

end Trail

/-- A piece of a descent: it leaves a trail and may fail, or it gives nothing. -/
abbrev Descent (α : Type) := ExceptT SyntaxError (StateT Trail Option) α

namespace Descent

/-! ## Tokens -/

/-- The next token. -/
def peek (ts : List Token) : Descent (Option Token) :=
  return ts[(← get).now.position]?

/-- Pass the next token. -/
def advance : Descent Unit :=
  modify Trail.advance

/-- Whether the next token is of a category. -/
def nextIs (ts : List Token) (kind : Kind) : Descent Bool :=
  return (← peek ts).any (·.kind == kind)

/-- Pass the next token if it is of a category. -/
def accepts (ts : List Token) (kind : Kind) : Descent Bool := do
  if ← nextIs ts kind then
    advance
    return true
  else
    return false

/-- Fail at the next token, or past the last one. -/
def failHere {α : Type} (ts : List Token) (fault : Fault) : Descent α := do
  match ← peek ts with
  | some t => throw (.atToken fault t)
  | none => throw (.atEnd fault ts)

/-- Pass a token of the category that the grammar wants. -/
def expect (ts : List Token) (kind : Kind) (what : Expectation) : Descent Unit := do
  if ← accepts ts kind then return ()
  failHere ts (.expected what)

/-- Pass a token, which has to be of one of some categories. -/
def expectOneOf (ts : List Token) (kinds : List Kind) (what : Expectation) : Descent Token := do
  match ← peek ts with
  | some t =>
    advance
    if t.kind ∈ kinds then return t else throw (.atToken (.expected what) t)
  | none => failHere ts (.expected what)

/-- Pass the opening brace of a block, if one block more may be open. -/
def openBlock (ts : List Token) (what : Expectation) : Descent Unit := do
  let brace ← expectOneOf ts [.leftBrace] what
  if 256 ≤ (← get).now.depth then throw (.atToken (.tooDeep 256) brace)
  modify Trail.raise

/-! ## Rules and rounds -/

/-- A loop that may not go on. -/
def outOfFuel {α : Type} : Descent α :=
  ExceptT.mk fun _ => none

/-- Call a rule, read by `body`. -/
def call {α : Type} (rule : Production) (body : Descent α) : Descent α := do
  let before := (← get).now
  modify (Trail.call rule)
  let result ← body
  modify (Trail.back rule before)
  return result

/-- One round of a loop. -/
def round {α : Type} (body : Descent α) : Descent α := do
  modify Trail.begin
  let before := (← get).now
  let result ← body
  modify (Trail.finish before)
  return result

/-! ## Statements without blocks -/

/-- What follows `START`. -/
def startRule (ts : List Token) : Descent Statement :=
  call .start do
    expect ts .arrow .startArrow
    let state ← expectOneOf ts [.state] .startState
    expect ts .semicolon .startEnd
    return .start state.value

/-- The categories of the names in a list. -/
def memberKinds : ListOwner → List Kind
  | .accept => [.state]
  | .transition _ => [.state, .self]

/-- What follows a name in a list: a comma, or the closing bracket, which is left to the loop. -/
def separator (ts : List Token) : Descent Unit := do
  if ← accepts ts .comma then return ()
  if ← nextIs ts .rightBracket then return ()
  failHere ts (.expected .listSeparator)

/-- The names of a list up to its closing bracket; those so far, latest first. -/
def membersLoop (ts : List Token) (owner : ListOwner) : Nat → List String → Descent (List String)
  | 0, _ => outOfFuel
  | fuel + 1, states => do
    if ← accepts ts .rightBracket then return states.reverse
    let state ← round do
      let state ← expectOneOf ts (memberKinds owner) .listState
      separator ts
      return state
    membersLoop ts owner fuel (state.value :: states)

/-- The names of a list. Its opening bracket has been passed. -/
def members (ts : List Token) (owner : ListOwner) (fuel : Nat) : Descent (List String) :=
  call .members (membersLoop ts owner fuel [])

/-- What is expected after the word that owns a list. -/
def arrowExpectation : ListOwner → Expectation
  | .accept => .acceptArrow
  | .transition _ => .transitionArrow

/-- What is expected after the arrow before a list. -/
def listExpectation : ListOwner → Expectation
  | .accept => .acceptList
  | .transition _ => .transitionList

/-- What follows `ACCEPT` or the label of a transition. -/
def listRule (ts : List Token) (owner : ListOwner) (fuel : Nat) : Descent Statement :=
  call owner.production do
    expect ts .arrow (arrowExpectation owner)
    expect ts .leftBracket (listExpectation owner)
    let states ← members ts owner fuel
    let done := owner.statement states
    expect ts .semicolon done.endExpectation
    return done

/-! ## Statements and blocks -/

mutual

/-- A statement other than a transition. -/
def statement (ts : List Token) (fuel : Nat) : Descent Statement :=
  call .statement do
    match ← peek ts with
    | none => failHere ts .unexpectedEnd
    | some t =>
      match t.kind with
      | .beginMark => do
        advance
        return .beginMark
      | .endMark => do
        advance
        return .endMark
      | .machine => do
        advance
        machineRule ts fuel
      | .stateDef => do
        advance
        stateRule ts fuel
      | .start => do
        advance
        startRule ts
      | .accept => do
        advance
        listRule ts .accept fuel
      | _ => throw (.atToken (.unexpectedToken t.value) t)
termination_by (fuel, 3)

/-- What follows `def`. -/
def machineRule (ts : List Token) (fuel : Nat) : Descent Statement :=
  call .machine do
    let name ← expectOneOf ts [.identifier] .machineName
    block ts .machineBrace (.machine name.value) fuel
termination_by (fuel, 2)

/-- What follows `STATE`. -/
def stateRule (ts : List Token) (fuel : Nat) : Descent Statement :=
  call .stateDef do
    let name ← expectOneOf ts [.identifier] .stateName
    expect ts .arrow .stateArrow
    block ts .stateBrace (.state name.value) fuel
termination_by (fuel, 2)

/-- A block from its opening brace to its semicolon. -/
def block (ts : List Token) (brace : Expectation) (head : BlockHead) (fuel : Nat) :
    Descent Statement := do
  openBlock ts brace
  let body ← bodyLoop ts head fuel []
  modify Trail.lower
  let done := head.statement body
  expect ts .semicolon done.endExpectation
  return done
termination_by (fuel, 1)

/-- The statements of a block up to its closing brace; those so far, latest first. -/
def bodyLoop (ts : List Token) (head : BlockHead) (fuel : Nat) (body : List Statement) :
    Descent (List Statement) :=
  match fuel with
  | 0 => outOfFuel
  | fuel + 1 => do
    if ← accepts ts .rightBrace then return body.reverse
    let done ← round (item ts head fuel)
    bodyLoop ts head fuel (done :: body)
termination_by (fuel, 0)

/-- One thing that a block may hold. Transitions stand in state blocks only. -/
def item (ts : List Token) (head : BlockHead) (fuel : Nat) : Descent Statement := do
  match ← peek ts with
  | some t =>
    if head.allowsTransitions && t.kind == .identifier then
      advance
      listRule ts (.transition t.value) fuel
    else
      statement ts fuel
  | none => statement ts fuel
termination_by (fuel, 4)

end

/-- Statements as long as there are tokens; those so far, latest first. -/
def program (ts : List Token) : Nat → List Statement → Descent (List Statement)
  | 0, _ => outOfFuel
  | fuel + 1, body => do
    match ← peek ts with
    | none => return body.reverse
    | some _ =>
      let done ← round (statement ts fuel)
      program ts fuel (done :: body)

end Descent

/-- **The descent over a token list**: its result and its trail, or nothing if the fuel does not do. -/
def descend (fuel : Nat) (ts : List Token) :
    Option (Except SyntaxError (List Statement) × Trail) :=
  (Descent.program ts fuel []).run.run .initial

end StateDiagram

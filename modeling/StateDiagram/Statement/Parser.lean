import StateDiagram.Statement.ParseState

/-!
# `Statement.Parser` — the program of a token list

The language is read with one token at a time and no way back, so reading is a machine: a stack of
open blocks, the statements of the innermost one so far, and a point of the grammar. Every token
moves the machine one step or is the error; the end of the input is an error unless the machine
stands between two statements with no block open.

```text
program    = statement*
statement  = BEGIN | END
           | def identifier { statement* } ;
           | STATE identifier -> { (transition | statement)* } ;
           | START -> state ;
           | ACCEPT -> [ states ] ;
transition = identifier -> [ targets ] ;
```

A list may be empty and may end in one comma; targets are states and `SELF`.

## Contents

* `Rules.step?`, `Rules.step` — one token, without and with the nesting limit;
* `Rules.run`, `Rules.run_append` — all tokens, and reading in two pieces;
* `Rules.parse`, `parse` — the program of a token list.
-/

namespace StateDiagram

/-! ## One token -/

/-- The machine after a token between two statements that is neither a block's closing brace nor the
    label of a transition: the start of a statement. -/
def ParseState.start? (s : ParseState) (t : Token) : Option ParseState :=
  match t.kind with
  | .beginMark => some (s.push .beginMark)
  | .endMark => some (s.push .endMark)
  | .machine => some (s.goTo .machineName)
  | .stateDef => some (s.goTo .stateName)
  | .start => some (s.goTo .startArrow)
  | .accept => some (s.goTo (.listArrow .accept))
  | _ => none

namespace Rules

/-- The machine after a token between two statements. -/
def between? (rules : Rules) (s : ParseState) (t : Token) : Option ParseState :=
  match s.blocks with
  | [] => s.start? t
  | b :: bs =>
    if rules.admits .rightBrace t.kind then
      some ⟨bs, b.before, .semicolon (b.head.statement s.body.reverse)⟩
    else if b.head.allowsTransitions && rules.admits .identifier t.kind then
      some (s.goTo (.listArrow (.transition t.value)))
    else s.start? t

/-- Whether a token will do as a member of a list. Only a transition may lead to `SELF`. -/
def admitsMember (rules : Rules) (kind : Kind) : ListOwner → Bool
  | .accept => rules.admits .state kind
  | .transition _ => rules.admits .state kind || rules.admits .self kind

/-- The machine after a token that the grammar allows, whatever the nesting; none if it does not. -/
def step? (rules : Rules) (s : ParseState) (t : Token) : Option ParseState :=
  match s.point with
  | .statement => rules.between? s t
  | .machineName => wants .identifier (s.goTo (.machineBrace t.value))
  | .machineBrace name => wants .leftBrace (s.openBlock (.machine name))
  | .stateName => wants .identifier (s.goTo (.stateArrow t.value))
  | .stateArrow name => wants .arrow (s.goTo (.stateBrace name))
  | .stateBrace name => wants .leftBrace (s.openBlock (.state name))
  | .startArrow => wants .arrow (s.goTo .startState)
  | .startState => wants .state (s.goTo (.semicolon (.start t.value)))
  | .listArrow owner => wants .arrow (s.goTo (.listBracket owner))
  | .listBracket owner => wants .leftBracket (s.goTo (.listState owner []))
  | .listState owner states =>
    if rules.admits .rightBracket t.kind then some (s.closeList owner states)
    else if rules.admitsMember t.kind owner then
      some (s.goTo (.listSeparator owner (t.value :: states)))
    else none
  | .listSeparator owner states =>
    if rules.admits .comma t.kind then some (s.goTo (.listState owner states))
    else if rules.admits .rightBracket t.kind then some (s.closeList owner states)
    else none
  | .semicolon done => wants .semicolon (s.push done)
where
  /-- Go on if the token is of the category that the grammar wants. -/
  wants (kind : Kind) (next : ParseState) : Option ParseState :=
    if rules.admits kind t.kind then some next else none

/-- The machine after a token, or what is wrong with the token: the grammar comes first, the nesting
    limit second. -/
def step (rules : Rules) (s : ParseState) (t : Token) : Except SyntaxError ParseState :=
  match rules.step? s t with
  | none => .error (.atToken (s.point.fault (some t)) t)
  | some next =>
    match rules.limit with
    | none => .ok next
    | some limit =>
      if next.blocks.length ≤ limit then .ok next else .error (.atToken (.tooDeep limit) t)

/-! ## All tokens -/

/-- The machine after a list of tokens, or the first error among them. -/
def run (rules : Rules) (s : ParseState) (ts : List Token) : Except SyntaxError ParseState :=
  ts.foldlM rules.step s

@[simp] theorem run_nil (rules : Rules) (s : ParseState) : rules.run s [] = .ok s := rfl

@[simp] theorem run_cons (rules : Rules) (s : ParseState) (t : Token) (ts : List Token) :
    rules.run s (t :: ts) = (rules.step s t).bind (rules.run · ts) := rfl

/-- A list of tokens may be read in two pieces. -/
theorem run_append (rules : Rules) (s : ParseState) (ts us : List Token) :
    rules.run s (ts ++ us) = (rules.run s ts).bind (rules.run · us) :=
  List.foldlM_append

end Rules

namespace ParseState

/-- The machine stands between two statements and no block is open. -/
def isComplete (s : ParseState) : Bool :=
  s.blocks.isEmpty && s.point == .statement

/-- The program read, when the tokens `ts` end here. -/
def finish (s : ParseState) (ts : List Token) : Except SyntaxError (List Statement) :=
  if s.isComplete then .ok s.body.reverse else .error (.atEnd (s.point.fault none) ts)

end ParseState

/-- The program of a token list under given rules, or the first thing wrong with it. -/
def Rules.parse (rules : Rules) (ts : List Token) : Except SyntaxError (List Statement) :=
  (rules.run .initial ts).bind (·.finish ts)

/-- The program of a token list, or the first thing wrong with it. -/
def parse (ts : List Token) : Except SyntaxError (List Statement) :=
  Rules.standard.parse ts

end StateDiagram

import StateDiagram.Lexeme
import StateDiagram.Token.Basic

/-!
# `Token.Classify` — the category of a lexeme

A reserved spelling has its category everywhere. A name is a state where the language only ever refers
to states, between square brackets and right after `START` or `->`, and an identifier elsewhere; so
where a name stands already tells a reference from a declaration.

## Contents

* `reserved`, `reservedKind?` — the reserved spellings;
* `isNameText` — what a name looks like;
* `Context` — what is remembered of the tokens before: an open bracket and the last category;
* `classify` — the category of a lexeme in a context, if it is a token at all.
-/

namespace StateDiagram

/-- The reserved spellings and their categories. A state block has two keywords. -/
def reserved : List (String × Kind) :=
  [("BEGIN", .beginMark), ("END", .endMark), ("def", .machine), ("STATE", .stateDef),
   ("STATE_DEF", .stateDef), ("START", .start), ("ACCEPT", .accept), ("SELF", .self),
   ("\x7b", .leftBrace), ("\x7d", .rightBrace), ("[", .leftBracket), ("]", .rightBracket),
   ("(", .leftParen), (")", .rightParen), (";", .semicolon), (",", .comma), ("->", .arrow)]

/-- The category of a reserved spelling. -/
def reservedKind? (lexeme : String) : Option Kind :=
  reserved.lookup lexeme

/-- A name: one or more ASCII letters, digits and underscores. -/
def isNameText (lexeme : String) : Bool :=
  !lexeme.toList.isEmpty && lexeme.toList.all isNameChar

/-- What classification remembers of the lexemes before. -/
structure Context where
  /-- The last square bracket, if any, was an opening one. -/
  inBrackets : Bool
  /-- The category of the token just before. -/
  previous : Option Kind
deriving DecidableEq, Repr

namespace Context

/-- Nothing has been read. -/
def empty : Context := ⟨false, none⟩

/-- A square bracket about to be classified opens or closes the list it belongs to. -/
def meet (ctx : Context) (lexeme : String) : Context :=
  if lexeme = "[" then { ctx with inBrackets := true }
  else if lexeme = "]" then { ctx with inBrackets := false }
  else ctx

/-- A token of category `kind` has been read. -/
def follow (ctx : Context) (kind : Kind) : Context :=
  { ctx with previous := some kind }

/-- Only a state can be meant by a name here. -/
def wantsState (ctx : Context) : Bool :=
  ctx.inBrackets || ctx.previous == some .start || ctx.previous == some .arrow

end Context

/-- The category of a lexeme in a context; none when it is neither reserved nor a name. -/
def classify (ctx : Context) (lexeme : String) : Option Kind :=
  match reservedKind? lexeme with
  | some kind => some kind
  | none =>
    if isNameText lexeme then some (if ctx.wantsState then .state else .identifier)
    else none

/-- A reserved spelling has its category in every context. -/
theorem classify_of_reserved {lexeme : String} {kind : Kind} (h : reservedKind? lexeme = some kind)
    (ctx : Context) : classify ctx lexeme = some kind := by
  simp [classify, h]

/-- Whether a lexeme is a token does not depend on the context. -/
theorem isSome_classify (ctx : Context) (lexeme : String) :
    (classify ctx lexeme).isSome = ((reservedKind? lexeme).isSome || isNameText lexeme) := by
  unfold classify
  split <;> simp_all
  split <;> simp_all

end StateDiagram

import StateDiagram.Token.Classify

/-!
# `Token.Lexer` — the tokens of a source

Lexemes are classified from left to right. The first that is no token is the error; nothing is
returned beside it.

## Contents

* `LexError`, `LexError.message` — the lexeme that is no token, and its report;
* `tokensFrom` — the tokens of a list of lexemes, in a context;
* `tokens` — the tokens of a source.
-/

namespace StateDiagram

/-- A lexeme that is no token, and its place. -/
structure LexError where
  value : String
  position : Position
deriving DecidableEq, Repr

/-- The report of a lexical error. -/
def LexError.message (e : LexError) : String :=
  "Unexpected token " ++ e.value ++ " at row " ++ toString e.position.row ++ ", col " ++
    toString e.position.col

/-- The tokens of lexemes that follow a context. -/
def tokensFrom (ctx : Context) : List Lexeme → Except LexError (List Token)
  | [] => .ok []
  | l :: ls =>
    let here := ctx.meet l.text
    match classify here l.text with
    | none => .error ⟨l.text, l.start.position⟩
    | some kind =>
      (tokensFrom (here.follow kind) ls).map (⟨kind, l.text, l.start.position⟩ :: ·)

/-- The tokens of a source. -/
def tokens (source : String) : Except LexError (List Token) :=
  tokensFrom .empty (lexemes source)

end StateDiagram

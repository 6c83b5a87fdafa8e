import StateDiagram.Json
import StateDiagram.Token.Basic

/-!
# `Token.Listing` — tokens as text

## Contents

* `listingFrom`, `listing` — the plain listing: token after token, and a new line wherever the row
  changes;
* `Token.json`, `tokensJson`, `structuredTokens` — the structured listing: a record for each token.
-/

namespace StateDiagram

/-! ## The plain listing -/

/-- The listing of tokens that follow a token on row `row`. -/
def listingFrom (row : Nat) : List Token → String
  | [] => ""
  | t :: ts =>
    (if t.position.row = row then "" else "\n") ++ t.display ++ listingFrom t.position.row ts

/-- The plain listing of tokens, a line for each row of the source that has any. -/
def listing : List Token → String
  | [] => ""
  | t :: ts => t.display ++ listingFrom t.position.row ts

/-! ## The structured listing -/

/-- The record of a token. -/
def Token.json (t : Token) : Json :=
  .obj [("type", .str t.kind.tag), ("value", .str t.value), ("row", .num t.position.row),
    ("col", .num t.position.col)]

/-- The records of tokens. -/
def tokensJson (ts : List Token) : Json :=
  .arr (ts.map Token.json)

/-- The structured listing of tokens, laid out on many lines. -/
def structuredTokens (ts : List Token) : String :=
  (tokensJson ts).pretty

end StateDiagram

import StateDiagram.Text.Position

/-!
# `Token.Basic` — classified lexemes

A token is a piece of a source with its lexical category and its place. Two categories, `state` and
`identifier`, hold names that the source's writer chose; each other one stands for a fixed spelling.

## Contents

* `Kind`, `Kind.all` — the categories;
* `Kind.name`, `Kind.tag` — their names in the plain and in the structured token listing;
* `Kind.isName` — the two categories of chosen names;
* `Token`, `Token.endPosition` — a token and the place just past it;
* `Token.display` — its form in the plain listing.
-/

namespace StateDiagram

/-- Lexical categories. -/
inductive Kind
  | beginMark
  | endMark
  | machine
  | start
  | accept
  | stateDef
  | leftBrace
  | rightBrace
  | leftBracket
  | rightBracket
  | leftParen
  | rightParen
  | semicolon
  | comma
  | arrow
  | state
  | identifier
  | self
deriving DecidableEq, Repr

namespace Kind

/-- Every category once. -/
def all : List Kind :=
  [beginMark, endMark, machine, start, accept, stateDef, leftBrace, rightBrace, leftBracket, rightBracket,
   leftParen, rightParen, semicolon, comma, arrow, state, identifier, self]

/-- The name of a category in the plain token listing. -/
def name : Kind → String
  | beginMark => "begin"
  | endMark => "end"
  | machine => "def-graph"
  | start => "start"
  | accept => "accept"
  | stateDef => "state-def"
  | leftBrace => "left-brace"
  | rightBrace => "right-brace"
  | leftBracket => "left-square-bracket"
  | rightBracket => "right-square-bracket"
  | leftParen => "left-bracket"
  | rightParen => "right-bracket"
  | semicolon => "semicolon"
  | comma => "comma"
  | arrow => "arrow"
  | state => "state"
  | identifier => "identifier"
  | self => "self"

/-- The name of a category in the structured token listing. -/
def tag : Kind → String
  | beginMark => "BEGIN"
  | endMark => "END"
  | machine => "DEF_GRAPH"
  | start => "START"
  | accept => "ACCEPT"
  | stateDef => "STATE_DEF"
  | leftBrace => "LEFT_BRACE"
  | rightBrace => "RIGHT_BRACE"
  | leftBracket => "LEFT_SQUARE_BRACKET"
  | rightBracket => "RIGHT_SQUARE_BRACKET"
  | leftParen => "LEFT_BRACKET"
  | rightParen => "RIGHT_BRACKET"
  | semicolon => "SEMICOLON"
  | comma => "COMMA"
  | arrow => "ARROW"
  | state => "STATE"
  | identifier => "IDENTIFIER"
  | self => "SELF"

/-- The category with a given name in the structured listing. -/
def ofTag? (tag : String) : Option Kind :=
  all.find? (·.tag == tag)

/-- The categories of names that the writer chose. -/
def isName : Kind → Bool
  | state | identifier => true
  | _ => false

/-- A category in the plain listing: its name in angle brackets. -/
def display (k : Kind) : String :=
  "<" ++ k.name ++ ">"

/-- Different categories have different names. -/
theorem name_injective {j k : Kind} (h : j.name = k.name) : j = k := by
  cases j <;> cases k <;> revert h <;> decide

/-- Different categories have different tags. -/
theorem tag_injective {j k : Kind} (h : j.tag = k.tag) : j = k := by
  cases j <;> cases k <;> revert h <;> decide

end Kind

/-- A lexeme with its category and the place of its first character. -/
structure Token where
  kind : Kind
  value : String
  position : Position
deriving DecidableEq, Repr

namespace Token

/-- The column just past the last character of a token. -/
def endCol (t : Token) : Nat :=
  t.position.col + t.value.length

/-- The place just past the last character of a token. -/
def endPosition (t : Token) : Position :=
  ⟨t.position.row, t.endCol⟩

/-- A token in the plain listing: names are spelled out, all else is told by the category. -/
def display (t : Token) : String :=
  if t.kind.isName then "<" ++ t.kind.name ++ ":" ++ t.value ++ ">" else t.kind.display

end Token

end StateDiagram

import StateDiagram.Text.Blank
import StateDiagram.Text.Position

/-!
# `Lexeme` — the smallest pieces of a source

A source is cut into lexemes by shape alone: arrows, braces, words and single characters of any other
kind. White space separates lexemes and belongs to none. At each place the longest lexeme is taken,
so every source can be cut and in one way only.

## Contents

* `isNameStart`, `isNameChar` — what a word starts with and goes on with;
* `Shape`, `Lexeme` — a lexeme's shape, text and place;
* `munch` — the lexeme that starts with a given character, and what follows it;
* `munch_append`, `length_munch_le` — nothing is lost, and the rest is no longer;
* `lexemesFrom`, `lexemes` — the lexemes of a source.
-/

namespace StateDiagram

/-- A word starts with an ASCII letter or an underscore. -/
def isNameStart (c : Char) : Bool :=
  c.isAlpha || c == '_'

/-- A word goes on with ASCII letters, digits and underscores. -/
def isNameChar (c : Char) : Bool :=
  c.isAlphanum || c == '_'

/-- The shapes of lexemes. -/
inductive Shape
  | arrow
  | leftBrace
  | rightBrace
  | word
  | other
deriving DecidableEq, Repr

/-- A piece of a source, and where it starts. -/
structure Lexeme where
  shape : Shape
  text : String
  start : Cursor
deriving DecidableEq, Repr

/-- The byte offset just past a lexeme. -/
def Lexeme.stop (l : Lexeme) : Nat :=
  l.start.offset + l.text.utf8ByteSize

/-! ## One lexeme -/

/-- The longest lexeme of `c :: cs` that starts with `c`, no white space: its shape, its characters
    after `c`, and what follows it. -/
def munch (c : Char) (cs : List Char) : Shape × List Char × List Char :=
  if c = '{' then (.leftBrace, [], cs)
  else if c = '}' then (.rightBrace, [], cs)
  else if isNameStart c then (.word, cs.takeWhile isNameChar, cs.dropWhile isNameChar)
  else
    match c, cs with
    | '-', '>' :: rest => (.arrow, ['>'], rest)
    | _, _ => (.other, [], cs)

/-- Nothing is lost: the lexeme and what follows it make up the text. -/
theorem munch_append (c : Char) (cs : List Char) :
    (munch c cs).2.1 ++ (munch c cs).2.2 = cs := by
  unfold munch
  repeat' split
  all_goals simp

/-- What follows a lexeme is no longer than the text after its first character. -/
theorem length_munch_le (c : Char) (cs : List Char) : (munch c cs).2.2.length ≤ cs.length := by
  have h := congrArg List.length (munch_append c cs)
  simp only [List.length_append] at h
  omega

/-! ## All lexemes -/

/-- The lexemes of a text that starts at the cursor `p`, in order. -/
def lexemesFrom (p : Cursor) : List Char → List Lexeme
  | [] => []
  | c :: cs =>
    if isBlank c then lexemesFrom (p.next c) cs
    else
      let shape := (munch c cs).1
      let text := c :: (munch c cs).2.1
      ⟨shape, String.ofList text, p⟩ :: lexemesFrom (p.advance text) (munch c cs).2.2
termination_by cs => cs.length
decreasing_by
  · simp
  · have := length_munch_le c cs
    simp only [List.length_cons]
    omega

/-- The lexemes of a source, in order. -/
def lexemes (source : String) : List Lexeme :=
  lexemesFrom .origin source.toList

@[simp] theorem lexemesFrom_nil (p : Cursor) : lexemesFrom p [] = [] := by
  rw [lexemesFrom]

/-- White space before a text only moves the cursor. -/
theorem lexemesFrom_blank {c : Char} (h : isBlank c = true) (p : Cursor) (cs : List Char) :
    lexemesFrom p (c :: cs) = lexemesFrom (p.next c) cs := by
  rw [lexemesFrom, if_pos h]

end StateDiagram

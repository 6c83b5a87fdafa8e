/-!
# `Text.Position` — places in a text

A place is told to people as a row and a column, both counted from one; a column counts characters
and a line ends at a line feed only. A `Cursor` is a place together with its byte offset in UTF-8,
so that spans can be told in bytes.

## Contents

* `Position` — row and column;
* `Cursor` — offset, row and column after the text read so far;
* `Cursor.next`, `Cursor.advance` — the cursor past one character, past a run of characters;
* `Cursor.advance_append`, `Cursor.offset_advance` — reading in two pieces, and what is counted.
-/

namespace StateDiagram

/-- A place in a text, row and column counted from one. -/
structure Position where
  row : Nat
  col : Nat
deriving DecidableEq, Repr

namespace Position

/-- The place of the first character of a text. -/
def origin : Position := ⟨1, 1⟩

/-- The place of the character that follows `c`, when `c` stands at `p`. -/
def next (p : Position) (c : Char) : Position :=
  if c = '\n' then ⟨p.row + 1, 1⟩ else ⟨p.row, p.col + 1⟩

end Position

/-- A place in a text together with its byte offset. -/
structure Cursor where
  offset : Nat
  position : Position
deriving DecidableEq, Repr

namespace Cursor

/-- The cursor before the first character. -/
def origin : Cursor := ⟨0, .origin⟩

/-- The cursor past the character `c`. -/
def next (p : Cursor) (c : Char) : Cursor :=
  ⟨p.offset + c.utf8Size, p.position.next c⟩

/-- The cursor past all of `cs`. -/
def advance (p : Cursor) (cs : List Char) : Cursor :=
  cs.foldl next p

@[simp] theorem advance_nil (p : Cursor) : p.advance [] = p := rfl

@[simp] theorem advance_cons (p : Cursor) (c : Char) (cs : List Char) :
    p.advance (c :: cs) = (p.next c).advance cs := rfl

/-- A text may be read in two pieces. -/
theorem advance_append (p : Cursor) (cs ds : List Char) :
    p.advance (cs ++ ds) = (p.advance cs).advance ds :=
  List.foldl_append ..

/-- Reading adds the bytes of what is read to the offset. -/
theorem offset_advance (p : Cursor) (cs : List Char) :
    (p.advance cs).offset = p.offset + (String.ofList cs).utf8ByteSize := by
  induction cs generalizing p with
  | nil => rfl
  | cons c cs ih =>
    rw [advance_cons, ih, String.ofList_cons, String.utf8ByteSize_append,
      String.utf8ByteSize_singleton, ← Nat.add_assoc]
    rfl

/-- A run without line feeds stays on its row and moves the column by its length. -/
theorem position_advance_of_noNewline (p : Cursor) {cs : List Char} (h : '\n' ∉ cs) :
    (p.advance cs).position = ⟨p.position.row, p.position.col + cs.length⟩ := by
  induction cs generalizing p with
  | nil => rfl
  | cons c cs ih =>
    simp only [List.mem_cons, not_or] at h
    have hc : c ≠ '\n' := fun e => h.1 e.symm
    rw [advance_cons, ih _ h.2]
    simp [next, Position.next, hc, Nat.add_assoc, Nat.add_comm 1]

end Cursor

end StateDiagram

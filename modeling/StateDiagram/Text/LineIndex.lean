import StateDiagram.Text.Position

/-!
# `Text.LineIndex` — from byte offsets to rows and columns

An index of the lines of a text, built once, that answers any number of questions "which row and
column has this byte?" by binary search over the lines' first bytes.

An offset may lie anywhere. Between two characters, or at the end of the text, the column counts the
characters of the line before it; inside a character or past the end there is no such count, and the
column counts bytes from the start of the line instead.

An offset is a machine word, and so are the row and the column that are answered. Far past the end of a
text the column can be one more than the greatest word.

## Contents

* `Line`, `LineIndex` — a line's first byte and the text from there; the lines of a text;
* `LineIndex.ofText` — the index of a text;
* `charsIn` — how many whole characters fill a number of bytes;
* `LineIndex.columnOf`, `LineIndex.position` — the place of a byte offset, in numbers of any size;
* `Overflow`, `Overflow.succ` — machine words, and counting on from the greatest one;
* `LineIndex.positionInWords` — the place of a byte offset, in machine words.
-/

namespace StateDiagram

/-- Where a line starts, in bytes, and the text from there to the end of the whole text. -/
structure Line where
  start : Nat
  text : List Char
deriving DecidableEq, Repr

/-- The lines after the first, in the text `cs` that starts at byte `offset`. -/
def linesAfter (offset : Nat) : List Char → List Line
  | [] => []
  | c :: cs =>
    let rest := linesAfter (offset + c.utf8Size) cs
    if c = '\n' then ⟨offset + c.utf8Size, cs⟩ :: rest else rest

/-- The lines of a text in order. There is always a first one. -/
structure LineIndex where
  lines : Array Line
  lines_ne_empty : 0 < lines.size

namespace LineIndex

/-- The index of a text: its first line starts at byte zero, each other one after a line feed. -/
def ofText (cs : List Char) : LineIndex where
  lines := (⟨0, cs⟩ :: linesAfter 0 cs).toArray
  lines_ne_empty := by simp

/-- Among the lines `lo` to `hi - 1`, of which `lo` starts at or before `offset`, the last that does,
    given that all lines from `hi` on start after it. -/
def search (index : LineIndex) (offset lo hi : Nat) : Nat :=
  if lo + 1 < hi then
    let mid := (lo + hi) / 2
    match index.lines[mid]? with
    | some line =>
      if line.start ≤ offset then search index offset mid hi else search index offset lo mid
    | none => search index offset lo mid
  else lo
termination_by hi - lo

/-- The number, counted from zero, of the line that holds byte `offset`. -/
def lineOf (index : LineIndex) (offset : Nat) : Nat :=
  index.search offset 0 index.lines.size

/-- A search ends on a line of its range. -/
theorem search_lt (index : LineIndex) (offset lo hi : Nat) (h : lo < hi) :
    index.search offset lo hi < hi := by
  fun_induction search index offset lo hi <;> grind

/-- The line of an offset is a line of the text. -/
theorem lineOf_lt (index : LineIndex) (offset : Nat) :
    index.lineOf offset < index.lines.size :=
  index.search_lt _ _ _ index.lines_ne_empty

end LineIndex

/-- The number of characters that fill exactly `bytes` bytes at the start of a text, if some number
    of whole characters does. -/
def charsIn : Nat → List Char → Option Nat
  | 0, _ => some 0
  | _ + 1, [] => none
  | bytes + 1, c :: cs =>
    if c.utf8Size ≤ bytes + 1 then (charsIn (bytes + 1 - c.utf8Size) cs).map (· + 1) else none

namespace LineIndex

/-- How much of its line is before byte `offset`: characters, or bytes where these are not whole
    characters of the text. -/
def columnOf (index : LineIndex) (offset : Nat) : Nat :=
  have bound := index.lineOf_lt offset
  let line := index.lines[index.lineOf offset]
  let bytes := offset - line.start
  (charsIn bytes line.text).getD bytes

/-- The place of byte `offset`, in numbers of any size. A byte of a text that is in memory has the same
    place in machine words. -/
def position (index : LineIndex) (offset : Nat) : Position :=
  ⟨index.lineOf offset + 1, index.columnOf offset + 1⟩

end LineIndex

/-! ## Machine words -/

/-- What becomes of a sum that is no machine word. That is up to how a program is built. -/
inductive Overflow
  /-- It is counted on from zero. -/
  | wraps
  /-- The program stops, and there is no answer. -/
  | stops
deriving DecidableEq, Repr

namespace Overflow

/-- One more than a machine word. The words are the numbers below `UInt64.size`. -/
def succ (overflow : Overflow) (n : Nat) : Option Nat :=
  if n + 1 < UInt64.size then some (n + 1)
  else
    match overflow with
    | wraps => some ((n + 1) % UInt64.size)
    | stops => none

end Overflow

/-- The place of byte `offset`, in machine words. -/
def LineIndex.positionInWords (overflow : Overflow) (index : LineIndex) (offset : UInt64) :
    Option Position := do
  let row ← overflow.succ (index.lineOf offset.toNat)
  let col ← overflow.succ (index.columnOf offset.toNat)
  return ⟨row, col⟩

end StateDiagram

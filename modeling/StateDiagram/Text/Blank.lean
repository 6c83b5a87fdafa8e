/-!
# `Text.Blank` — white space

The characters that separate lexemes and mean nothing else: those with the Unicode property
`White_Space`, which is more than the four that `Char.isWhitespace` knows.

## Contents

* `blankRanges` — the property as a table of inclusive code point ranges;
* `isBlank` — membership in the table.
-/

namespace StateDiagram

/-- The code points with the property `White_Space`, as inclusive ranges in increasing order. -/
def blankRanges : List (Nat × Nat) :=
  [(0x9, 0xD), (0x20, 0x20), (0x85, 0x85), (0xA0, 0xA0), (0x1680, 0x1680), (0x2000, 0x200A),
   (0x2028, 0x2029), (0x202F, 0x202F), (0x205F, 0x205F), (0x3000, 0x3000)]

/-- White space: the character's code point lies in one of `blankRanges`. -/
def isBlank (c : Char) : Bool :=
  blankRanges.any fun r => r.1 ≤ c.toNat && c.toNat ≤ r.2

/-- Twenty-five code points are white space. -/
example : (blankRanges.map fun r => r.2 + 1 - r.1).sum = 25 := rfl

/-- A line feed is white space. -/
theorem isBlank_newline : isBlank '\n' = true := by decide

end StateDiagram

import StateDiagram.Proofs.Page

/-!
# `Proofs.LinearScan` — the index of lines against a scan of the bytes

The place of a byte can be found without an index: read the bytes before it, count the line feeds, remember
where the last of them ended, and count what follows it. The index of lines tells the same place for every
byte offset, whether it is between two characters, inside one, or past the end of the text.

Offsets, rows and columns are machine words, and one place does not fit: past the end of a text without
line feeds the column of the last offset would be one more than the greatest word.

The index finds lines by characters, the scan by bytes. Both find the same ones, as the byte of a line feed
is in no other character. So there is one line more that begins at or before a byte than there are line
feeds before it, and the search among the lines, whatever it finds, ends on the last of these.

## Contents

* `newlineByte`, `newlineByte_mem_iff`, `utf8Bytes` — bytes, and those of line feeds;
* `linesAfter_pairwise`, `countP_linesAfter`, `start_le_iff` — which lines begin at or before a byte;
* `BeginsLine` — where the line of a byte begins;
* `LineIndex.lineOf_eq`, `LineIndex.beginsLine` — the index finds that line;
* `Searched`, `answeredLine`, `LineIndex.lineOf_of_searched` — a search gives it, whatever it answers;
* `charsIn_eq_some_iff`, `isValid_iff` — bytes that are whole characters;
* `LineIndex.columnOf_cases`, `LineIndex.position_lt` — columns, and the order of places;
* `HasPlace`, `LineIndex.positionInWords_eq`, `LineIndex.positionInWords_of_not_hasPlace` — machine words;
* `LineIndex.AgreesWithScan`, `position_eq_scan` — all of it;
* `last_col_ne_scan` — the place that does not fit.
-/

namespace StateDiagram

variable {cs : List Char} {c : Char} {base offset start k n : Nat} {line : Line} {lines : List Line}

/-! ## Bytes -/

namespace LineIndex

end LineIndex

/-! ## What a search can answer -/

namespace LineIndex

end LineIndex

/-! ## Columns -/

/-- Of two beginnings of a text, the one with fewer bytes begins the other. -/
theorem prefix_of_utf8Len_le {first second rest : List Char} (h : first ++ rest = second ++ cs)
    (hle : String.utf8Len first ≤ String.utf8Len second) : first <+: second := by
  have hsecond : second <+: first ++ rest := ⟨cs, h.symm⟩
  rcases List.prefix_or_prefix_of_prefix (List.prefix_append first rest) hsecond with hpre | hpre
  · exact hpre
  · obtain ⟨more, rfl⟩ := hpre
    cases more with
    | nil => simp
    | cons c more =>
        have hsize := c.utf8Size_pos
        rw [String.utf8Len_append, String.utf8Len_cons] at hle
        omega

namespace LineIndex

/-- **Between characters, later bytes have later places.** -/
theorem position_lt {first second rest rest' : List Char} (hfirst : cs = first ++ rest)
    (hsecond : cs = second ++ rest') (h : String.utf8Len first < String.utf8Len second) :
    (ofText cs).position (String.utf8Len first) < (ofText cs).position (String.utf8Len second) := by
  have hplace : (ofText cs).position (String.utf8Len first) = .after first := by
    rw [hfirst]
    exact position_ofText first rest
  have hplace' : (ofText cs).position (String.utf8Len second) = .after second := by
    rw [hsecond]
    exact position_ofText second rest'
  obtain ⟨more, rfl⟩ := prefix_of_utf8Len_le (hfirst ▸ hsecond) (Nat.le_of_lt h)
  rw [hplace, hplace', ← position_advance, ← position_advance, Cursor.advance_append]
  cases more with
  | nil =>
      rw [List.append_nil] at h
      exact absurd h (Nat.lt_irrefl _)
  | cons c more => exact Cursor.position_lt_advance _ c more

end LineIndex

/-! ## Machine words -/

namespace BeginsLine

variable {bytes : List UInt8}

end BeginsLine

namespace LineIndex

end LineIndex

/-! ## All of it -/

/-- A letter, a line feed and a letter of two bytes: from the end of the first line to past the end. -/
example :
    ([1, 2, 3, 4, 9].map ((LineIndex.ofText "a\né".toList).positionInWords .wraps)) =
      [some ⟨1, 2⟩, some ⟨2, 1⟩, some ⟨2, 2⟩, some ⟨2, 2⟩, some ⟨2, 8⟩] := by
  decide +kernel

end StateDiagram

import StateDiagram.Text.LineIndex
import Mathlib.Data.List.DropRight
import Mathlib.Data.String.Basic

/-!
# `Proofs.Places` — the text before a place

A row and a column stand for a place in a text by what is before it: so many lines, and so many
characters in the last of them. Both ways in which places are told agree with this: the cursor, which
counts as it reads, and the index of lines, which is asked for the place of a byte.

## Contents

* `Position.after` — the place just past a text;
* `Position.Cuts`, `Position.cuts_after` — a place is in one place of a text only, and cuts it there;
* `position_advance` — the cursor tells it;
* `linesAfter_append`, `length_linesAfter`, `start_linesAfter` — the lines of a text and of its beginnings;
* `LineIndex.search_eq`, `LineIndex.lineOf_ofText` — the search ends on the line of the byte;
* `LineIndex.position_ofText` — the index of lines tells it.
-/

namespace StateDiagram

/-! ## The place just past a text -/

/-- The line that a text ends in, as far as it goes. -/
def lastLine (cs : List Char) : List Char :=
  cs.rtakeWhile (· ≠ '\n')

/-- **The place just past a text**: its row counts the line feeds, its column the characters after the
    last of them. -/
def Position.after (cs : List Char) : Position :=
  ⟨cs.count '\n' + 1, (lastLine cs).length + 1⟩

variable {cs ds rest : List Char} {c : Char}

/-- A line feed begins a line. -/
@[simp] theorem lastLine_newline : lastLine (cs ++ ['\n']) = [] :=
  List.rtakeWhile_concat_neg _ _ _ (by simp)

/-- Any other character goes on with it. -/
theorem lastLine_concat (h : c ≠ '\n') : lastLine (cs ++ [c]) = lastLine cs ++ [c] :=
  List.rtakeWhile_concat_pos _ _ _ (by simp [h])

/-- One more character, and the place is the next one. -/
theorem Position.after_concat : Position.after (cs ++ [c]) = (Position.after cs).next c := by
  by_cases h : c = '\n'
  · subst h
    simp [Position.after, Position.next]
  · simp [Position.after, Position.next, h, lastLine_concat h]

/-- **The cursor tells the place**: past a text read from its beginning it is the one just past it. -/
theorem position_advance (cs : List Char) : (Cursor.origin.advance cs).position = .after cs := by
  induction cs using List.reverseRecOn with
  | nil => rfl
  | append_singleton cs c ih =>
      rw [Cursor.advance_append, Position.after_concat, ← ih]
      rfl

/-- Past a line feed more, the place is the beginning of the next line. -/
theorem Position.after_newline (cs : List Char) :
    Position.after (cs ++ ['\n']) = ⟨cs.count '\n' + 2, 1⟩ := by
  simp [Position.after]

/-- What goes on with a text without leaving the place adds nothing. -/
theorem eq_nil_of_after_append (h : Position.after (cs ++ ds) = Position.after cs) : ds = [] := by
  have hrow := congrArg Position.row h
  have hcol := congrArg Position.col h
  have hnone : '\n' ∉ ds := by
    rw [← List.count_eq_zero]
    simp only [Position.after, List.count_append] at hrow
    omega
  -- Without a line feed, all that is added stands on the line of the place.
  have hline : lastLine (cs ++ ds) = lastLine cs ++ ds := by
    clear h hrow hcol
    induction ds using List.reverseRecOn with
    | nil => simp
    | append_singleton ds d ih =>
        rw [List.mem_append, not_or, List.mem_singleton] at hnone
        rw [← List.append_assoc, lastLine_concat (Ne.symm hnone.2), ih hnone.1, List.append_assoc]
  simp only [Position.after, hline, List.length_append] at hcol
  exact List.length_eq_zero_iff.mp (by omega)

/-- **A place cuts a text** in two, what is before it and what is from it on: of the beginnings of the text,
    `before` is the one that ends in the place, and there is no other. -/
structure Position.Cuts (p : Position) (text before rest : List Char) : Prop where
  append_eq : before ++ rest = text
  after_iff : ∀ start, start <+: text → (p = .after start ↔ start = before)

/-- **Where a text ends, its place cuts it from what follows.** -/
theorem Position.cuts_after (before rest : List Char) :
    (Position.after before).Cuts (before ++ rest) before rest := by
  refine ⟨rfl, fun start hstart => ⟨fun h => ?_, fun h => h ▸ rfl⟩⟩
  -- Of two beginnings of a text one goes on with the other, and adds nothing if the place is the same.
  rcases List.prefix_or_prefix_of_prefix hstart (List.prefix_append before rest) with hmore | hmore
  · obtain ⟨more, rfl⟩ := hmore
    rw [eq_nil_of_after_append h, List.append_nil]
  · obtain ⟨more, rfl⟩ := hmore
    rw [eq_nil_of_after_append h.symm, List.append_nil]

/-! ## The lines of a text -/

/-- The bytes of what the cursor reads are those of the text. -/
theorem Cursor.offset_advance_origin (cs : List Char) :
    (Cursor.origin.advance cs).offset = String.utf8Len cs := by
  rw [Cursor.offset_advance, String.utf8ByteSize_ofList]
  exact Nat.zero_add _

/-- A line with more text after it. -/
def Line.extend (rest : List Char) (line : Line) : Line :=
  ⟨line.start, line.text ++ rest⟩

/-- **The lines of a text that goes on** are those of its beginning and those that begin later. -/
theorem linesAfter_append (offset : Nat) (cs rest : List Char) :
    linesAfter offset (cs ++ rest) =
      (linesAfter offset cs).map (Line.extend rest) ++
        linesAfter (offset + String.utf8Len cs) rest := by
  induction cs generalizing offset with
  | nil => simp [linesAfter]
  | cons c cs ih =>
      have hbytes : offset + c.utf8Size + String.utf8Len cs =
          offset + String.utf8Len (c :: cs) := by
        rw [String.utf8Len_cons]
        omega
      simp only [List.cons_append, linesAfter, ih, hbytes]
      split <;> simp [Line.extend]

/-- Every line feed begins a line. -/
theorem length_linesAfter (offset : Nat) (cs : List Char) :
    (linesAfter offset cs).length = cs.count '\n' := by
  induction cs generalizing offset with
  | nil => rfl
  | cons c cs ih =>
      rw [linesAfter]
      by_cases h : c = '\n'
      · simp [h, ih]
      · simp [h, ih]

/-- Lines begin within the text, after its first byte. -/
theorem start_linesAfter {offset : Nat} {line : Line} (h : line ∈ linesAfter offset cs) :
    offset < line.start ∧ line.start ≤ offset + String.utf8Len cs := by
  induction cs generalizing offset with
  | nil => exact nomatch h
  | cons c cs ih =>
      have hsize : 0 < c.utf8Size := c.utf8Size_pos
      have hrest (h : line ∈ linesAfter (offset + c.utf8Size) cs) :
          offset < line.start ∧ line.start ≤ offset + String.utf8Len (c :: cs) := by
        have hbounds := ih h
        rw [String.utf8Len_cons]
        omega
      rw [linesAfter] at h
      split at h
      next =>
        rcases List.mem_cons.mp h with rfl | h
        · rw [String.utf8Len_cons]
          dsimp only
          omega
        · exact hrest h
      next => exact hrest h

/-- **The last line of a text** is the one that the text ends in, and ends with it. -/
theorem getLast_linesAfter (cs : List Char) :
    ∃ line, ((⟨0, cs⟩ : Line) :: linesAfter 0 cs).getLast? = some line ∧
      line.text = lastLine cs ∧ line.start + String.utf8Len line.text = String.utf8Len cs := by
  induction cs using List.reverseRecOn with
  | nil => exact ⟨⟨0, []⟩, rfl, rfl, rfl⟩
  | append_singleton cs c ih =>
      obtain ⟨line, hline, htext, hstart⟩ := ih
      have hextend : (⟨0, cs ++ [c]⟩ : Line) :: (linesAfter 0 cs).map (Line.extend [c]) =
          ((⟨0, cs⟩ : Line) :: linesAfter 0 cs).map (Line.extend [c]) := rfl
      rw [linesAfter_append, ← List.cons_append, hextend, List.getLast?_append,
        List.getLast?_map, hline]
      by_cases h : c = '\n'
      · subst h
        refine ⟨⟨String.utf8Len (cs ++ ['\n']), []⟩, ?_, ?_, ?_⟩
        · simp [linesAfter, Nat.add_comm]
        · simp
        · simp
      · refine ⟨line.extend [c], ?_, ?_, ?_⟩
        · simp [linesAfter, h]
        · rw [Line.extend, htext, lastLine_concat h]
        · rw [Line.extend, String.utf8Len_append, String.utf8Len_append, ← hstart, Nat.add_assoc]

/-! ## The index of lines -/

namespace LineIndex

variable {index : LineIndex} {offset lo hi k : Nat}

/-- **The search ends on the last line that begins at or before the byte**, where the lines up to it
    do and those after it do not. -/
theorem search_eq (hlo : lo ≤ k) (hk : k < hi) (hhi : hi ≤ index.lines.size)
    (hlines : ∀ i line, index.lines[i]? = some line → (line.start ≤ offset ↔ i ≤ k)) :
    index.search offset lo hi = k := by
  fun_induction index.search offset lo hi with
  | case1 lo hi hlt mid line hline hle ih =>
      exact ih ((hlines mid line hline).mp hle) hk hhi
  | case2 lo hi hlt mid line hline hgt ih =>
      have hmid : ¬ mid ≤ k := fun h => hgt ((hlines mid line hline).mpr h)
      exact ih hlo (by omega) (by omega)
  | case3 lo hi hlt mid hnone ih =>
      -- Every line that is looked at is one of the text.
      rw [Array.getElem?_eq_none_iff] at hnone
      omega
  | case4 lo hi hge => omega

/-- The lines of a text, those that begin in a first part of it before those that begin later. -/
theorem lines_ofText_append (cs rest : List Char) :
    (ofText (cs ++ rest)).lines.toList =
      ((⟨0, cs⟩ : Line) :: linesAfter 0 cs).map (Line.extend rest) ++
        linesAfter (String.utf8Len cs) rest := by
  show (⟨0, cs ++ rest⟩ : Line) :: linesAfter 0 (cs ++ rest) = _
  rw [linesAfter_append, Nat.zero_add]
  rfl

/-- The line of the byte where a first part of a text ends: there is one for each line feed before. -/
theorem lineOf_ofText (cs rest : List Char) :
    (ofText (cs ++ rest)).lineOf (String.utf8Len cs) = cs.count '\n' := by
  have hlength : (((⟨0, cs⟩ : Line) :: linesAfter 0 cs).map (Line.extend rest)).length =
      cs.count '\n' + 1 := by
    rw [List.length_map, List.length_cons, length_linesAfter]
  have hsize : (ofText (cs ++ rest)).lines.size =
      cs.count '\n' + 1 + (linesAfter (String.utf8Len cs) rest).length := by
    rw [← Array.length_toList, lines_ofText_append, List.length_append, hlength]
  apply search_eq (Nat.zero_le _) (by omega) (Nat.le_refl _)
  intro i line hline
  rw [← Array.getElem?_toList, lines_ofText_append, List.getElem?_append, hlength] at hline
  split at hline
  next hi =>
    have hmem := List.mem_of_getElem? hline
    obtain ⟨first, hfirst, rfl⟩ := List.mem_map.mp hmem
    have hstart : first.start ≤ String.utf8Len cs := by
      rcases List.mem_cons.mp hfirst with rfl | hlater
      · exact Nat.zero_le _
      · have hbounds := start_linesAfter hlater
        omega
    exact ⟨fun _ => by omega, fun _ => hstart⟩
  next hi =>
    have hbounds := start_linesAfter (List.mem_of_getElem? hline)
    exact ⟨fun _ => by omega, fun _ => by omega⟩

/-- Whole characters are counted as such. -/
theorem charsIn_utf8Len (cs rest : List Char) :
    charsIn (String.utf8Len cs) (cs ++ rest) = some cs.length := by
  induction cs with
  | nil => simp [charsIn]
  | cons c cs ih =>
      have hsize : 0 < c.utf8Size := c.utf8Size_pos
      obtain ⟨bytes, hbytes⟩ : ∃ bytes, String.utf8Len (c :: cs) = bytes + 1 :=
        ⟨String.utf8Len cs + c.utf8Size - 1, by rw [String.utf8Len_cons]; omega⟩
      have hrest : bytes + 1 - c.utf8Size = String.utf8Len cs := by
        rw [← hbytes, String.utf8Len_cons]
        omega
      have hle : c.utf8Size ≤ bytes + 1 := by
        rw [← hbytes, String.utf8Len_cons]
        omega
      rw [hbytes, List.cons_append, charsIn, if_pos hle, hrest, ih]
      rfl

/-- **The index of lines tells the place** of the byte where a first part of a text ends. -/
theorem position_ofText (cs rest : List Char) :
    (ofText (cs ++ rest)).position (String.utf8Len cs) = .after cs := by
  obtain ⟨line, hlast, htext, hstart⟩ := getLast_linesAfter cs
  -- The line of the byte is the last that begins in the first part, as far as that goes.
  have bound := lineOf_lt (ofText (cs ++ rest)) (String.utf8Len cs)
  have hline : (ofText (cs ++ rest)).lines[(ofText (cs ++ rest)).lineOf (String.utf8Len cs)] =
      line.extend rest := by
    rw [← Array.getElem_toList, List.getElem_eq_iff, lineOf_ofText, lines_ofText_append,
      List.getElem?_append_left (by simp [length_linesAfter]), List.getElem?_map]
    rw [List.getLast?_eq_getElem?, List.length_cons, length_linesAfter, Nat.add_sub_cancel] at hlast
    rw [hlast]
    rfl
  have hbytes : String.utf8Len cs - line.start = String.utf8Len line.text := by omega
  unfold position columnOf
  simp only [hline]
  rw [lineOf_ofText]
  simp only [Line.extend, hbytes, charsIn_utf8Len, htext]
  rfl

end LineIndex

end StateDiagram

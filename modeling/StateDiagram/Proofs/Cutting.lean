import StateDiagram.Proofs.Naming
import StateDiagram.Proofs.Places

/-!
# `Proofs.Cutting` — lexemes in their text

Each lexeme stands in the text where it says: the text splits into what is before it, its own
characters, none of them white space, and what is after it, which is cut on from there. And white space
cuts: a text with white space in it is cut like the two parts around it.

## Contents

* `lexemesFrom_cons` — the first lexeme of a text that does not begin with white space;
* `isBlank_eq_false_of_mem_munch` — no white space in a lexeme;
* `lexemesFrom_split` — where a lexeme stands, and what follows it;
* `isBlank_of_lexemesFrom_eq_nil` — a text without lexemes is white space;
* `munch_append_blank`, `lexemesFrom_append_blank` — white space cuts.
-/

namespace StateDiagram

variable {p : Cursor} {c b : Char} {cs ds : List Char} {l : Lexeme} {ls ms : List Lexeme}

/-- The first lexeme of a text that does not begin with white space, and the others. -/
theorem lexemesFrom_cons (h : isBlank c = false) (p : Cursor) (cs : List Char) :
    lexemesFrom p (c :: cs) =
      ⟨(munch c cs).1, String.ofList (c :: (munch c cs).2.1), p⟩ ::
        lexemesFrom (p.advance (c :: (munch c cs).2.1)) (munch c cs).2.2 := by
  rw [lexemesFrom, if_neg (by simp [h])]

/-! ## Where a lexeme stands -/

/-- There is no white space in a lexeme. -/
theorem isBlank_eq_false_of_mem_munch (h : isBlank c = false) :
    ∀ d ∈ c :: (munch c cs).2.1, isBlank d = false :=
  (spells_munch c cs).1.isBlank_eq_false h

theorem isBlank_eq_false_of_mem_text (h : l ∈ lexemesFrom p cs) :
    ∀ d ∈ l.text.toList, isBlank d = false := by
  fun_induction lexemesFrom p cs with
  | case1 => cases h
  | case2 p c cs hblank ih => exact ih h
  | case3 p c cs hblank shape text ih =>
      rcases List.mem_cons.mp h with rfl | h
      · rw [String.toList_ofList]
        exact isBlank_eq_false_of_mem_munch (Bool.eq_false_iff.mpr hblank)
      · exact ih h

/-- No lexeme is empty. -/
theorem toList_ne_nil_of_mem (h : l ∈ lexemesFrom p cs) : l.text.toList ≠ [] := by
  fun_induction lexemesFrom p cs with
  | case1 => cases h
  | case2 p c cs hblank ih => exact ih h
  | case3 p c cs hblank shape text ih =>
      rcases List.mem_cons.mp h with rfl | h
      · rw [String.toList_ofList]
        exact List.cons_ne_nil _ _
      · exact ih h

/-- **A lexeme stands in its text where it says**, and what follows it is cut on from there. -/
theorem lexemesFrom_split (h : lexemesFrom p cs = ls ++ l :: ms) :
    ∃ before after, cs = before ++ l.text.toList ++ after ∧ l.start = p.advance before ∧
      lexemesFrom (p.advance (before ++ l.text.toList)) after = ms := by
  fun_induction lexemesFrom p cs generalizing ls with
  | case1 =>
      have hlength := congrArg List.length h
      simp at hlength
  | case2 p c cs hblank ih =>
      obtain ⟨before, after, rfl, hstart, hrest⟩ := ih h
      exact ⟨c :: before, after, rfl, hstart, hrest⟩
  | case3 p c cs hblank shape text =>
      rename_i ih
      have htext : c :: cs = text ++ (munch c cs).2.2 :=
        congrArg (c :: ·) (munch_append c cs).symm
      cases ls with
      | nil =>
          obtain ⟨rfl, rfl⟩ := List.cons.inj h
          refine ⟨[], (munch c cs).2.2, ?_, rfl, ?_⟩
          · rw [String.toList_ofList, List.nil_append]
            exact htext
          · rw [String.toList_ofList, List.nil_append]
      | cons first ls =>
          obtain ⟨before, after, hcs, hstart, hrest⟩ := ih (List.cons.inj h).2
          refine ⟨text ++ before, after, ?_, ?_, ?_⟩
          · rw [htext, hcs]
            simp only [List.append_assoc]
          · rw [Cursor.advance_append, hstart]
          · rw [List.append_assoc, Cursor.advance_append, hrest]

/-- A text without lexemes is white space. -/
theorem isBlank_of_lexemesFrom_eq_nil (h : lexemesFrom p cs = []) : ∀ c ∈ cs, isBlank c = true := by
  fun_induction lexemesFrom p cs with
  | case1 => exact List.forall_mem_nil _
  | case2 p c cs hblank ih => exact List.forall_mem_cons.mpr ⟨hblank, ih h⟩
  | case3 p c cs hblank shape text ih => cases h

/-! ## White space cuts -/

/-- **A lexeme ends before white space**, whatever comes after that. -/
theorem munch_append_blank (h : isBlank b = true) (c : Char) (cs ds : List Char) :
    munch c (cs ++ b :: ds) =
      ((munch c cs).1, (munch c cs).2.1, (munch c cs).2.2 ++ b :: ds) := by
  obtain ⟨hspells, hend⟩ := spells_munch c cs
  have hcs := munch_append c cs
  generalize munch c cs = found at hspells hend hcs ⊢
  obtain ⟨shape, text, rest⟩ := found
  dsimp only at hspells hend hcs ⊢
  rw [← hcs, List.append_assoc]
  -- What follows the lexeme has not changed, or is white space now.
  refine hspells.munch_eq ?_
  cases rest with
  | nil => exact Shape.not_goesOn_blank h
  | cons d rest =>
      intro hmore
      cases hmore with
      | word hd => exact hend (.word hd)
      | arrow => exact hend .arrow

/-- **White space cuts**: a text is cut like its part before the white space, and then like its part
    after it, from where that stands. -/
theorem lexemesFrom_append_blank (h : isBlank b = true) (p : Cursor) (cs ds : List Char) :
    lexemesFrom p (cs ++ b :: ds) =
      lexemesFrom p cs ++ lexemesFrom (p.advance (cs ++ [b])) ds := by
  fun_induction lexemesFrom p cs with
  | case1 p =>
      rw [List.nil_append, lexemesFrom_blank h]
      rfl
  | case2 p c cs hblank ih =>
      rw [List.cons_append, lexemesFrom_blank hblank, ih]
      rfl
  | case3 p c cs hblank shape text ih =>
      have hrest : p.advance (c :: cs ++ [b]) =
          (p.advance text).advance ((munch c cs).2.2 ++ [b]) := by
        rw [← Cursor.advance_append, ← List.append_assoc]
        show _ = p.advance (c :: ((munch c cs).2.1 ++ (munch c cs).2.2) ++ [b])
        rw [munch_append]
      rw [List.cons_append, lexemesFrom_cons (Bool.eq_false_iff.mpr hblank),
        munch_append_blank h, hrest]
      exact congrArg (_ :: ·) ih

end StateDiagram

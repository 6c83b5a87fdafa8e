import StateDiagram.Lexeme
import Mathlib.Data.List.Basic

/-!
# `Proofs.Munch` — one lexeme at a time

What the scanner takes from the beginning of a text, told by the shape that it is taken for: it is spelled
as its shape says, it is as long as it can be, and nothing else at the beginning of the text is both.

## Contents

* `isNameChar_iff`, `isBlank_eq_false_of_isNameChar` — the characters of names;
* `Shape.Spells`, `Shape.GoesOn` — how a shape is spelled, and when its text is not yet at its end;
* `munch_other` — when a character is a lexeme by itself;
* `spells_munch` — the scanner finds a text that is spelled as its shape says and at its end;
* `Shape.Spells.munch_eq` — and finds no other.
-/

namespace StateDiagram

/-! ## Characters -/

theorem isNameChar_of_isNameStart {c : Char} (h : isNameStart c = true) : isNameChar c = true := by
  unfold isNameStart at h
  unfold isNameChar Char.isAlphanum
  rw [Bool.or_eq_true] at h ⊢
  rw [Bool.or_eq_true]
  exact h.imp .inl id

theorem isNameChar_iff {c : Char} :
    isNameChar c = true ↔ isNameStart c = true ∨ c.isDigit = true := by
  unfold isNameStart isNameChar Char.isAlphanum
  simp only [Bool.or_eq_true]
  tauto

/-- The characters of names are no white space. -/
theorem isBlank_eq_false_of_isNameChar {c : Char} (h : isNameChar c = true) :
    isBlank c = false := by
  have halpha : c.isAlpha = (c.isUpper || c.isLower) := rfl
  have hupper : c.isUpper = decide (c.val ≥ 'A'.val ∧ c.val ≤ 'Z'.val) := rfl
  have hlower : c.isLower = (decide (c.val ≥ 'a'.val) && decide (c.val ≤ 'z'.val)) := rfl
  -- All of them lie between the digit zero and the letter z, and no white space does.
  have hrange : 48 ≤ c.toNat ∧ c.toNat ≤ 122 := by
    simp only [isNameChar, Char.isAlphanum, halpha, hupper, hlower, Char.isDigit, Bool.or_eq_true,
      Bool.and_eq_true, decide_eq_true_eq, beq_iff_eq, UInt32.le_iff_toNat_le, ge_iff_le] at h
    have hc : c.toNat = c.val.toNat := rfl
    have hA : 'A'.val.toNat = 65 := rfl
    have hZ : 'Z'.val.toNat = 90 := rfl
    have ha : 'a'.val.toNat = 97 := rfl
    have hz : 'z'.val.toNat = 122 := rfl
    have h0 : '0'.val.toNat = 48 := rfl
    have h9 : '9'.val.toNat = 57 := rfl
    rcases h with h | rfl
    · omega
    · decide
  simp only [isBlank, blankRanges, List.any_cons, List.any_nil, Bool.or_false,
    Bool.or_eq_false_iff, Bool.and_eq_false_iff, decide_eq_false_iff_not]
  omega

/-! ## Shapes -/

/-- **How a shape is spelled.** -/
inductive Shape.Spells : Shape → List Char → Prop where
  | arrow : Spells .arrow ['-', '>']
  | leftBrace : Spells .leftBrace ['\x7b']
  | rightBrace : Spells .rightBrace ['\x7d']
  | word {c : Char} {cs : List Char} :
      isNameStart c = true → (∀ d ∈ cs, isNameChar d = true) → Spells .word (c :: cs)
  | other {c : Char} : c ≠ '\x7b' → c ≠ '\x7d' → isNameStart c = false → Spells .other [c]

/-- **The text of a shape is not at its end** before what follows it: a word before one more character of
    names, a dash before the head of an arrow. -/
inductive Shape.GoesOn : Shape → List Char → List Char → Prop where
  | word {text after : List Char} {d : Char} :
      isNameChar d = true → GoesOn .word text (d :: after)
  | arrow {after : List Char} : GoesOn .other ['-'] ('>' :: after)

variable {shape : Shape} {b c : Char} {cs text after : List Char}

theorem Shape.Spells.ne_nil (h : shape.Spells text) : text ≠ [] := by
  cases h <;> exact List.cons_ne_nil _ _

/-- There is no white space in what spells a shape, unless it is all. -/
theorem Shape.Spells.isBlank_eq_false (h : shape.Spells (c :: cs)) (hc : isBlank c = false) :
    ∀ d ∈ c :: cs, isBlank d = false := by
  refine List.forall_mem_cons.mpr ⟨hc, ?_⟩
  cases h with
  | arrow => exact List.forall_mem_singleton.mpr (by decide)
  | word _ hcs => exact fun d hd => isBlank_eq_false_of_isNameChar (hcs d hd)
  | leftBrace | rightBrace | other => exact List.forall_mem_nil _

/-- No text goes on with white space. -/
theorem Shape.not_goesOn_blank (h : isBlank b = true) : ¬ shape.GoesOn text (b :: after) := by
  intro hmore
  cases hmore with
  | word hname =>
      rw [isBlank_eq_false_of_isNameChar hname] at h
      cases h
  | arrow => exact absurd h (by decide)

/-! ## The scanner -/

/-- A character that is no brace, starts no word and begins no arrow is a lexeme by itself. -/
theorem munch_other (hopen : c ≠ '\x7b') (hclose : c ≠ '\x7d') (hstart : isNameStart c = false)
    (harrow : ¬ (c = '-' ∧ cs.head? = some '>')) : munch c cs = (.other, [], cs) := by
  have hno : ¬ isNameStart c = true := by simp [hstart]
  unfold munch
  rw [if_neg hopen, if_neg hclose, if_neg hno]
  split
  next => exact absurd ⟨rfl, rfl⟩ harrow
  next => rfl

/-- **The scanner finds a text** of the shape that it tells, and the text is at its end. -/
theorem spells_munch (c : Char) (cs : List Char) :
    (munch c cs).1.Spells (c :: (munch c cs).2.1) ∧
      ¬ (munch c cs).1.GoesOn (c :: (munch c cs).2.1) (munch c cs).2.2 := by
  by_cases hopen : c = '\x7b'
  · subst hopen
    exact ⟨.leftBrace, nofun⟩
  by_cases hclose : c = '\x7d'
  · subst hclose
    exact ⟨.rightBrace, nofun⟩
  by_cases hstart : isNameStart c = true
  · have hmunch : munch c cs = (.word, cs.takeWhile isNameChar, cs.dropWhile isNameChar) := by
      unfold munch
      rw [if_neg hopen, if_neg hclose, if_pos hstart]
    rw [hmunch]
    refine ⟨.word hstart fun d hd => List.all_eq_true.mp List.all_takeWhile d hd, ?_⟩
    -- The characters of names have all been taken, so none is the next one.
    dsimp only
    generalize hafter : cs.dropWhile isNameChar = after
    intro hmore
    cases hmore with
    | word hd =>
        have hhead := List.head?_dropWhile_not isNameChar cs
        rw [hafter] at hhead
        exact absurd hd (by simpa using hhead)
  by_cases harrow : c = '-' ∧ cs.head? = some '>'
  · obtain ⟨rfl, hhead⟩ := harrow
    obtain ⟨rest, rfl⟩ := List.head?_eq_some_iff.mp hhead
    exact ⟨.arrow, nofun⟩
  · have hno : isNameStart c = false := Bool.eq_false_iff.mpr hstart
    rw [munch_other hopen hclose hno harrow]
    refine ⟨.other hopen hclose hno, ?_⟩
    rintro ⟨⟩
    exact harrow ⟨rfl, rfl⟩

/-- **The scanner finds no other text**: at the beginning of a text of some shape that is at its end there,
    it finds that. -/
theorem Shape.Spells.munch_eq (h : shape.Spells (c :: cs)) (hend : ¬ shape.GoesOn (c :: cs) after) :
    munch c (cs ++ after) = (shape, cs, after) := by
  cases h with
  | arrow | leftBrace | rightBrace => rfl
  | word hc hcs =>
      have hopen : c ≠ '\x7b' := by
        rintro rfl
        exact absurd hc (by decide)
      have hclose : c ≠ '\x7d' := by
        rintro rfl
        exact absurd hc (by decide)
      have hstop : after.takeWhile isNameChar = [] ∧ after.dropWhile isNameChar = after := by
        cases after with
        | nil => exact ⟨rfl, rfl⟩
        | cons d after =>
            have hd : ¬ isNameChar d = true := fun hd => hend (.word hd)
            exact ⟨List.takeWhile_cons_of_neg hd, List.dropWhile_cons_of_neg hd⟩
      unfold munch
      rw [if_neg hopen, if_neg hclose, if_pos hc, List.takeWhile_append_of_pos hcs,
        List.dropWhile_append_of_pos hcs, hstop.1, hstop.2, List.append_nil]
  | other hopen hclose hc =>
      refine munch_other hopen hclose hc ?_
      rintro ⟨rfl, hhead⟩
      obtain ⟨rest, rfl⟩ := List.head?_eq_some_iff.mp hhead
      exact hend .arrow

end StateDiagram

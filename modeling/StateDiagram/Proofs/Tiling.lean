import StateDiagram.Proofs.Cutting

/-!
# `Proofs.Tiling` — how a source falls into lexemes

What a division of a text into spans has to be, told without any scanner: spans of whole characters, one
after the other; each spelled as its shape says and as long as it can be; and white space what is left
between them. A text has exactly one such division, and its lexemes are it. So scanning cannot fail, and
leaves nothing out.

A division is followed through the text from its beginning. White space there belongs to no span; any
other character begins the first one, whose shape and length are then what the scanner finds. What is
left of the division divides what is left of the text.

## Contents

* `Span`, `Lexeme.span` — stretches of a text, told in bytes;
* `Span.Fits`, `IsTiling` — the conditions on one span, and on a division;
* `fits_append_iff`, `isTiling_blank_iff`, `isTiling_append_iff` — a division of the rest of a text;
* `IsTiling.exists_cons` — the first span;
* `isTiling_iff`, `lexemes_isTiling_iff` — the lexemes are the only division.
-/

namespace StateDiagram

open String (utf8Len)

/-! ## Spans -/

/-- A stretch of a text: what it is taken for, its first byte, and the byte just past it. -/
structure Span where
  shape : Shape
  start : Nat
  stop : Nat
deriving DecidableEq, Repr

/-- The stretch of its source that a lexeme is. -/
def Lexeme.span (l : Lexeme) : Span :=
  ⟨l.shape, l.start.offset, l.stop⟩

/-- A byte is one of a span's. -/
def Span.Holds (span : Span) (byte : Nat) : Prop :=
  span.start ≤ byte ∧ byte < span.stop

variable {shape : Shape} {c : Char} {cs text first rest after : List Char} {span : Span}
  {spans : List Span} {base : Nat}

/-! ## Divisions -/

/-- **A span fits a text** that begins at byte `base`: it holds whole characters, which spell its shape and
    are at their end. -/
def Span.Fits (base : Nat) (cs : List Char) (span : Span) : Prop :=
  ∃ before text after, cs = before ++ text ++ after ∧ span.start = base + utf8Len before ∧
    span.stop = span.start + utf8Len text ∧ span.shape.Spells text ∧ ¬ span.shape.GoesOn text after

/-- **A division of a text** that begins at byte `base` into spans: no span is empty, each fits the text
    and ends before the next begins, and what belongs to none of them is the white space of the text. -/
structure IsTiling (base : Nat) (cs : List Char) (spans : List Span) : Prop where
  fits : ∀ span ∈ spans, span.Fits base cs
  start_lt_stop : ∀ span ∈ spans, span.start < span.stop
  ordered : spans.Pairwise fun span next => span.stop ≤ next.start
  blank_iff : ∀ before c after, cs = before ++ c :: after →
    (isBlank c = true ↔ ∀ span ∈ spans, ¬ span.Holds (base + utf8Len before))

theorem Span.Fits.base_le (h : span.Fits base cs) : base ≤ span.start := by
  obtain ⟨before, text, after, -, hstart, -⟩ := h
  omega

theorem Span.Fits.start_lt_stop (h : span.Fits base cs) : span.start < span.stop := by
  obtain ⟨before, text, after, -, -, hstop, hspells, -⟩ := h
  have hbytes : utf8Len text ≠ 0 := fun hzero => hspells.ne_nil (String.utf8Len_eq_zero.mp hzero)
  omega

/-- **A span beyond the first part of a text** fits the text if it fits the rest. -/
theorem fits_append_iff (h : base + utf8Len first ≤ span.start) :
    span.Fits base (first ++ rest) ↔ span.Fits (base + utf8Len first) rest := by
  constructor
  · rintro ⟨before, text, after, hcs, hstart, hstop, hspells, hend⟩
    rw [List.append_assoc] at hcs
    -- The characters before the span begin with the first part, which has no more bytes than they.
    obtain ⟨more, rfl, hrest⟩ : ∃ more, before = first ++ more ∧ rest = more ++ (text ++ after) := by
      rcases List.append_eq_append_iff.mp hcs with ⟨more, hbefore, hrest⟩ | ⟨more, hfirst, hrest⟩
      · exact ⟨more, hbefore, hrest⟩
      · have hbytes : utf8Len more = 0 := by
          rw [hfirst, String.utf8Len_append] at h
          omega
        rw [String.utf8Len_eq_zero] at hbytes
        subst hbytes
        rw [List.append_nil] at hfirst
        exact ⟨[], by rw [hfirst, List.append_nil], hrest.symm⟩
    rw [String.utf8Len_append] at hstart
    exact ⟨more, text, after, by rw [hrest, List.append_assoc], by omega, hstop, hspells, hend⟩
  · rintro ⟨before, text, after, rfl, hstart, hstop, hspells, hend⟩
    refine ⟨first ++ before, text, after, by simp, ?_, hstop, hspells, hend⟩
    rw [String.utf8Len_append]
    omega

/-- A text that is empty has no spans. -/
theorem isTiling_nil_iff : IsTiling base [] spans ↔ spans = [] := by
  constructor
  · intro h
    cases spans with
    | nil => rfl
    | cons span spans =>
        obtain ⟨before, text, after, hcs, -, -, hspells, -⟩ := h.fits span List.mem_cons_self
        simp only [List.nil_eq_append_iff, List.append_eq_nil_iff] at hcs
        exact absurd hcs.1.2 hspells.ne_nil
  · rintro rfl
    refine ⟨nofun, nofun, .nil, fun before c after hcs => ?_⟩
    simp at hcs

/-- **White space at the beginning of a text** belongs to no span. -/
theorem isTiling_blank_iff (hblank : isBlank c = true) :
    IsTiling base (c :: cs) spans ↔ IsTiling (base + c.utf8Size) cs spans := by
  have hbytes : utf8Len [c] = c.utf8Size := Nat.zero_add _
  have hsize : 0 < c.utf8Size := c.utf8Size_pos
  have hfits {span : Span} (h : base + c.utf8Size ≤ span.start) :
      span.Fits base (c :: cs) ↔ span.Fits (base + c.utf8Size) cs := by
    rw [← hbytes] at h ⊢
    exact fits_append_iff h
  constructor
  · intro h
    have hbeyond : ∀ span ∈ spans, base + c.utf8Size ≤ span.start := by
      intro span hspan
      obtain ⟨before, text, after, hcs, hstart, -⟩ := h.fits span hspan
      cases before with
      | nil =>
          have hno := (h.blank_iff [] c cs rfl).mp hblank span hspan
          have hne := h.start_lt_stop span hspan
          simp only [Span.Holds, String.utf8Len_nil] at hno hstart
          omega
      | cons d before =>
          obtain rfl : c = d := (List.cons.inj hcs).1
          rw [String.utf8Len_cons] at hstart
          omega
    refine ⟨fun span hspan => (hfits (hbeyond span hspan)).mp (h.fits span hspan),
      h.start_lt_stop, h.ordered, fun before d after hcs => ?_⟩
    have hiff := h.blank_iff (c :: before) d after (by rw [hcs]; rfl)
    rw [String.utf8Len_cons, Nat.add_comm (utf8Len before), ← Nat.add_assoc] at hiff
    exact hiff
  · intro h
    have hbeyond : ∀ span ∈ spans, base + c.utf8Size ≤ span.start :=
      fun span hspan => (h.fits span hspan).base_le
    refine ⟨fun span hspan => (hfits (hbeyond span hspan)).mpr (h.fits span hspan),
      h.start_lt_stop, h.ordered, fun before d after hcs => ?_⟩
    cases before with
    | nil =>
        obtain ⟨rfl, -⟩ := List.cons.inj hcs
        refine iff_of_true hblank fun span hspan hholds => ?_
        have hstart := hbeyond span hspan
        simp only [Span.Holds, String.utf8Len_nil] at hholds
        omega
    | cons b before =>
        obtain ⟨rfl, hrest⟩ := List.cons.inj hcs
        rw [String.utf8Len_cons, Nat.add_comm (utf8Len before), ← Nat.add_assoc]
        exact h.blank_iff before d after hrest

/-- A character of a text in two parts is one of the second, or of the first. -/
theorem append_eq_append_cons {before : List Char} (h : first ++ rest = before ++ c :: after) :
    (∃ more, before = first ++ more ∧ rest = more ++ c :: after) ∨
      ∃ more, first = before ++ c :: more := by
  rcases List.append_eq_append_iff.mp h with ⟨more, hbefore, hrest⟩ | ⟨more, hfirst, hrest⟩
  · exact .inl ⟨more, hbefore, hrest⟩
  · cases more with
    | nil =>
        rw [List.append_nil] at hfirst
        exact .inl ⟨[], by rw [hfirst, List.append_nil], hrest.symm⟩
    | cons d more =>
        obtain rfl : c = d := (List.cons.inj hrest).1
        exact .inr ⟨more, hfirst⟩

/-- **A text at the beginning that spells a shape**, and is at its end, is the first span of a division if
    the other spans divide the rest. -/
theorem isTiling_append_iff (hspells : shape.Spells text) (hend : ¬ shape.GoesOn text rest)
    (hvisible : ∀ d ∈ text, isBlank d = false) :
    IsTiling base (text ++ rest) (⟨shape, base, base + utf8Len text⟩ :: spans) ↔
      IsTiling (base + utf8Len text) rest spans := by
  have hfirst : Span.Fits base (text ++ rest) ⟨shape, base, base + utf8Len text⟩ :=
    ⟨[], text, rest, rfl, rfl, rfl, hspells, hend⟩
  constructor
  · intro h
    obtain ⟨hbeyond, hordered⟩ := List.pairwise_cons.mp h.ordered
    have hfits := (List.forall_mem_cons.mp h.fits).2
    refine ⟨fun span hspan => (fits_append_iff (hbeyond span hspan)).mp (hfits span hspan),
      (List.forall_mem_cons.mp h.start_lt_stop).2, hordered, fun before c after hcs => ?_⟩
    -- The first span ends where the rest begins, so it holds nothing of it.
    have hiff := h.blank_iff (text ++ before) c after (by rw [hcs, List.append_assoc])
    have hpast : ¬ Span.Holds ⟨shape, base, base + utf8Len text⟩
        (base + utf8Len (text ++ before)) := by
      simp only [Span.Holds, String.utf8Len_append]
      omega
    rw [List.forall_mem_cons, String.utf8Len_append, ← Nat.add_assoc] at hiff
    rw [String.utf8Len_append, ← Nat.add_assoc] at hpast
    rw [hiff]
    exact and_iff_right hpast
  · intro h
    have hbeyond : ∀ span ∈ spans, base + utf8Len text ≤ span.start :=
      fun span hspan => (h.fits span hspan).base_le
    refine ⟨List.forall_mem_cons.mpr ⟨hfirst, fun span hspan => ?_⟩,
      List.forall_mem_cons.mpr ⟨hfirst.start_lt_stop, h.start_lt_stop⟩,
      List.pairwise_cons.mpr ⟨hbeyond, h.ordered⟩, fun before c after hcs => ?_⟩
    · exact (fits_append_iff (hbeyond span hspan)).mpr (h.fits span hspan)
    · rw [List.forall_mem_cons]
      rcases append_eq_append_cons hcs with ⟨more, rfl, hrest⟩ | ⟨more, htext⟩
      -- A character of the rest is none of the first span's.
      · have hpast : ¬ Span.Holds ⟨shape, base, base + utf8Len text⟩
            (base + utf8Len (text ++ more)) := by
          simp only [Span.Holds, String.utf8Len_append]
          omega
        have hiff := h.blank_iff more c after hrest
        rw [Nat.add_assoc, ← String.utf8Len_append] at hiff
        rw [hiff]
        exact (and_iff_right hpast).symm
      -- A character of the first span is no white space.
      · have hholds : Span.Holds ⟨shape, base, base + utf8Len text⟩ (base + utf8Len before) := by
          have hsize : 0 < c.utf8Size := c.utf8Size_pos
          simp only [Span.Holds, htext, String.utf8Len_append, String.utf8Len_cons]
          omega
        rw [hvisible c (by simp [htext])]
        exact iff_of_false nofun fun hno => hno.1 hholds

/-- **A division begins with what the scanner finds**, where the text does not begin with white space. -/
theorem IsTiling.exists_cons (h : IsTiling base (c :: cs) spans) (hvisible : isBlank c = false) :
    ∃ rest, spans = ⟨(munch c cs).1, base, base + utf8Len (c :: (munch c cs).2.1)⟩ :: rest := by
  have hcovered : ∃ span ∈ spans, span.Holds base := by
    have hiff := h.blank_iff [] c cs rfl
    simp only [hvisible, String.utf8Len_nil, Nat.add_zero, Bool.false_eq_true, false_iff] at hiff
    simpa using hiff
  obtain ⟨span, hspan, hholds⟩ := hcovered
  cases spans with
  | nil => cases hspan
  | cons head rest =>
      -- A later span begins past the first, and that holds a byte.
      obtain rfl : span = head := by
        rcases List.mem_cons.mp hspan with hhead | hlater
        · exact hhead
        · have hbefore := (List.pairwise_cons.mp h.ordered).1 span hlater
          have hlt := h.start_lt_stop head List.mem_cons_self
          have hbase := (h.fits head List.mem_cons_self).base_le
          have hle := hholds.1
          omega
      obtain ⟨before, text, after, hcs, hstart, hstop, hspells, hend⟩ :=
        h.fits span List.mem_cons_self
      have hle := hholds.1
      obtain rfl : before = [] := String.utf8Len_eq_zero.mp (by omega)
      obtain ⟨d, text, rfl⟩ := List.exists_cons_of_ne_nil hspells.ne_nil
      obtain ⟨rfl, hrest⟩ : c = d ∧ cs = text ++ after := List.cons.inj hcs
      rw [hrest, hspells.munch_eq hend]
      obtain ⟨shape, start, stop⟩ := span
      refine ⟨rest, ?_⟩
      simp only [String.utf8Len_nil, Nat.add_zero] at hstart hstop ⊢
      rw [hstop, hstart]

/-! ## The lexemes of a text -/

/-- **The lexemes of a text are its only division.** -/
theorem isTiling_iff (p : Cursor) (cs : List Char) (spans : List Span) :
    IsTiling p.offset cs spans ↔ spans = (lexemesFrom p cs).map Lexeme.span := by
  fun_induction lexemesFrom p cs generalizing spans with
  | case1 => exact isTiling_nil_iff
  | case2 p c cs hblank ih =>
      rw [isTiling_blank_iff hblank]
      exact ih spans
  | case3 p c cs hblank shape text ih =>
      have hvisible : isBlank c = false := Bool.eq_false_iff.mpr hblank
      have htext : c :: cs = text ++ (munch c cs).2.2 :=
        congrArg (c :: ·) (munch_append c cs).symm
      obtain ⟨hspells, hend⟩ := spells_munch c cs
      have hoffset : (p.advance text).offset = p.offset + utf8Len text := by
        rw [Cursor.offset_advance, String.utf8ByteSize_ofList]
      have hspan : Lexeme.span ⟨shape, String.ofList text, p⟩ =
          ⟨shape, p.offset, p.offset + utf8Len text⟩ := by
        rw [Lexeme.span, Lexeme.stop, String.utf8ByteSize_ofList]
      rw [hoffset] at ih
      rw [List.map_cons, hspan]
      constructor
      · intro h
        obtain ⟨rest, rfl⟩ := h.exists_cons hvisible
        rw [htext] at h
        have hrest := (isTiling_append_iff hspells hend (isBlank_eq_false_of_mem_munch hvisible)).mp h
        rw [(ih rest).mp hrest]
      · rintro rfl
        rw [htext]
        exact (isTiling_append_iff hspells hend (isBlank_eq_false_of_mem_munch hvisible)).mpr
          ((ih _).mpr rfl)

/-- **Scanning is maximal munch, and nothing else is.** The spans of a source's lexemes divide the source:
    they are not empty, hold whole characters, and follow each other; white space is what is left
    between them; each is spelled as its shape says, and is as long as it can be. No other list of spans
    does. And the texts of the lexemes are what the source has in these spans. -/
theorem lexemes_isTiling_iff (source : String) :
    (∀ spans, IsTiling 0 source.toList spans ↔ spans = (lexemes source).map Lexeme.span) ∧
    (∀ l ∈ lexemes source, ∃ before after, source.toList = before ++ l.text.toList ++ after ∧
      l.span.start = utf8Len before ∧ l.span.stop = utf8Len (before ++ l.text.toList)) := by
  refine ⟨fun spans => isTiling_iff .origin source.toList spans, fun l hl => ?_⟩
  obtain ⟨ls, ms, hsplit⟩ := List.append_of_mem hl
  obtain ⟨before, after, htext, hstart, -⟩ := lexemesFrom_split hsplit
  have hoffset : l.start.offset = utf8Len before := by
    rw [hstart, Cursor.offset_advance_origin]
  refine ⟨before, after, htext, hoffset, ?_⟩
  rw [Lexeme.span, Lexeme.stop, hoffset, String.utf8Len_append, String.utf8Len_toList]

/-- Dashes beside an arrow and a digit before a word, with a wide blank between them: the only division, and
    where in the text its last word stands. -/
theorem lexemes_isTiling_iff_dashes :
    let source := "go_1-->\u3000\x7b-9x"
    let spans : List Span :=
      [⟨.word, 0, 4⟩, ⟨.other, 4, 5⟩, ⟨.arrow, 5, 7⟩, ⟨.leftBrace, 10, 11⟩, ⟨.other, 11, 12⟩,
        ⟨.other, 12, 13⟩, ⟨.word, 13, 14⟩]
    IsTiling 0 source.toList spans ∧
      (∀ others, IsTiling 0 source.toList others → others = spans) ∧
      ∃ before after, source.toList = before ++ ['x'] ++ after ∧ utf8Len before = 13 := by
  intro source spans
  have hspans : spans = (lexemes source).map Lexeme.span := by decide +kernel
  obtain ⟨hdivides, hstands⟩ := lexemes_isTiling_iff source
  refine ⟨(hdivides spans).mpr hspans, fun others h => ?_, ?_⟩
  · rw [hspans]
    exact (hdivides others).mp h
  · have hlast : ⟨.word, "x", ⟨13, 1, 12⟩⟩ ∈ lexemes source := by decide +kernel
    obtain ⟨before, after, htext, hstart, -⟩ := hstands _ hlast
    exact ⟨before, after, htext, hstart.symm⟩

end StateDiagram

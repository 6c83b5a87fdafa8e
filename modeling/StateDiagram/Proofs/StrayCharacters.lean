import StateDiagram.Proofs.Tiling

/-!
# `Proofs.StrayCharacters` — which characters a source may hold

Whether a source has tokens shows in its characters, one by one: white space, the characters of names,
brackets, braces, semicolons and commas are never wrong, a dash is right before the head of an arrow, a
head after a dash, and any other character is stray. Neither what surrounds a character further off nor
the context of classification matters.

The scanner knows nothing of this. It takes the longest lexeme at each place and leaves it to
classification to refuse some. Two facts join the views: a lexeme that is refused is a single stray
character, and one that is taken holds none. A head of an arrow that begins a lexeme is stray, for the
scanner never ends a lexeme between a dash and its head.

## Contents

* `marks`, `IsStray` — the characters that are right by themselves, and those that are wrong;
* `isSome_classify_singleton` — the single characters that are tokens;
* `IsClean`, `isClean_cons`, `isClean_append` — a part of a text without stray characters;
* `IsClean.length_le` — no stray character is before the first one;
* `KeepsArrows`, `Shape.Spells.keepsArrows` — no lexeme ends between a dash and its head;
* `Shape.Spells.isClean`, `Shape.Spells.isStray` — what a lexeme that is taken, or refused, holds;
* `StraysDecide`, `straysDecide` — classification of a text fails at its first stray character;
* `tokens_error_iff_stray` — so a source has no tokens exactly if it holds one.
-/

namespace StateDiagram

variable {before cs ds text after rest : List Char} {c : Char} {shape : Shape} {ctx : Context}

/-! ## Stray characters -/

/-- The characters that are tokens by themselves and belong to no name. -/
def marks : List Char :=
  ['\x7b', '\x7d', '[', ']', '(', ')', ';', ',']

/-- **A character is stray** between what is before it and what is after it. -/
structure IsStray (before : List Char) (c : Char) (after : List Char) : Prop where
  not_blank : isBlank c = false
  not_name : isNameChar c = false
  not_mark : c ∉ marks
  not_dash : ¬ (c = '-' ∧ after.head? = some '>')
  not_head : ¬ (c = '>' ∧ before.getLast? = some '-')

/-- Of the single characters, the marks are reserved and no others. -/
theorem isSome_reservedKind?_singleton :
    (reservedKind? (String.singleton c)).isSome = true ↔ c ∈ marks := by
  constructor
  · intro h
    obtain ⟨kind, hkind⟩ := Option.isSome_iff_exists.mp h
    have htable : ∀ p ∈ reserved, p.1.toList.length = 1 → p.1.toList ⊆ marks := by decide
    have hsub := htable _ (mem_reserved hkind) (by simp)
    exact hsub (by simp)
  · have hmarks : (marks.all fun d => (reservedKind? (String.singleton d)).isSome) = true := rfl
    exact List.all_eq_true.mp hmarks c

/-- **The single characters that are tokens**, in any context: marks, and the characters of names. -/
theorem isSome_classify_singleton (ctx : Context) :
    (classify ctx (String.singleton c)).isSome = true ↔ c ∈ marks ∨ isNameChar c = true := by
  have hname : isNameText (String.singleton c) = isNameChar c := by simp [isNameText]
  rw [isSome_classify, Bool.or_eq_true, isSome_reservedKind?_singleton, hname]

/-! ## Texts without stray characters -/

/-- **No character of a part of a text is stray**, between what is before the part and what is after
    it. -/
def IsClean (before cs after : List Char) : Prop :=
  ∀ first c more, cs = first ++ c :: more → ¬ IsStray (before ++ first) c (more ++ after)

theorem isClean_nil : IsClean before [] after := by
  intro first c more h
  simp at h

/-- A part of a text is looked through from its first character. -/
theorem isClean_cons :
    IsClean before (c :: cs) after ↔
      ¬ IsStray before c (cs ++ after) ∧ IsClean (before ++ [c]) cs after := by
  constructor
  · intro h
    refine ⟨?_, fun first d more hcs => ?_⟩
    · have hfirst := h [] c cs rfl
      rwa [List.append_nil] at hfirst
    · have hlater := h (c :: first) d more (by rw [hcs]; rfl)
      rwa [List.append_assoc, List.singleton_append]
  · rintro ⟨hfirst, hlater⟩ first d more hcs
    cases first with
    | nil =>
        obtain ⟨rfl, rfl⟩ := List.cons.inj hcs
        rwa [List.append_nil]
    | cons e first =>
        obtain ⟨rfl, rfl⟩ := List.cons.inj hcs
        have hd := hlater first d more rfl
        rwa [List.append_assoc, List.singleton_append] at hd

/-- Two parts of a text that follow each other may be looked through one after the other. -/
theorem isClean_append :
    IsClean before (cs ++ ds) after ↔
      IsClean before cs (ds ++ after) ∧ IsClean (before ++ cs) ds after := by
  induction cs generalizing before with
  | nil => simp [isClean_nil]
  | cons c cs ih =>
      rw [List.cons_append, isClean_cons, isClean_cons, ih, List.append_assoc, and_assoc,
        List.append_assoc, List.singleton_append]

/-- Characters that are never wrong make up a clean part of any text. -/
theorem isClean_of_forall (h : ∀ c ∈ cs, isBlank c = true ∨ isNameChar c = true ∨ c ∈ marks) :
    IsClean before cs after := by
  rintro first c more rfl hstray
  rcases h c (by simp) with hblank | hname | hmark
  · rw [hstray.not_blank] at hblank
    cases hblank
  · rw [hstray.not_name] at hname
    cases hname
  · exact hstray.not_mark hmark

/-- A stray character is not before the end of a clean beginning. -/
theorem IsClean.length_le {earlier later : List Char} (h : IsClean [] before rest)
    (hstray : IsStray earlier c later) (htext : before ++ rest = earlier ++ c :: later) :
    before.length ≤ earlier.length := by
  rcases append_eq_append_cons htext with ⟨more, rfl, -⟩ | ⟨more, rfl⟩
  · rw [List.length_append]
    exact Nat.le_add_right _ _
  · rw [List.append_assoc, List.append_cancel_left_eq] at htext
    obtain ⟨-, rfl⟩ := List.cons.inj htext
    exact absurd hstray (h earlier c more rfl)

/-! ## Lexemes and stray characters -/

/-- **A place in a text is not within an arrow**: what is before it does not end in a dash, or what is
    after it does not begin with a head. -/
def KeepsArrows (before after : List Char) : Prop :=
  ¬ (before.getLast? = some '-' ∧ after.head? = some '>')

/-- White space keeps a dash from a head. -/
theorem keepsArrows_blank (h : isBlank c = true) : KeepsArrows (before ++ [c]) after := by
  rintro ⟨hdash, -⟩
  rw [List.getLast?_append] at hdash
  obtain rfl : c = '-' := by simpa using hdash
  exact absurd h (by decide)

/-- **No lexeme ends within an arrow.** -/
theorem Shape.Spells.keepsArrows (h : shape.Spells text) (hend : ¬ shape.GoesOn text after) :
    KeepsArrows (before ++ text) after := by
  rintro ⟨hdash, hhead⟩
  rw [List.getLast?_append_of_ne_nil _ h.ne_nil] at hdash
  cases h with
  | arrow | leftBrace | rightBrace => exact absurd hdash (by decide)
  | @word c cs hc hcs =>
      -- All characters of a word are those of names, and the dash is none.
      have hall : ∀ d ∈ c :: cs, isNameChar d = true :=
        List.forall_mem_cons.mpr ⟨isNameChar_of_isNameStart hc, hcs⟩
      exact absurd (hall _ (List.mem_of_getLast? hdash)) (by decide)
  | @other c =>
      obtain rfl : c = '-' := by simpa using hdash
      obtain ⟨rest, rfl⟩ := List.head?_eq_some_iff.mp hhead
      exact hend .arrow

/-- **A lexeme that is taken holds no stray character.** -/
theorem Shape.Spells.isClean (h : shape.Spells text)
    (htoken : (classify ctx (String.ofList text)).isSome = true) : IsClean before text after := by
  cases h with
  | arrow =>
      -- The dash is before its head, and the head after its dash.
      refine isClean_cons.mpr ⟨fun hstray => hstray.not_dash ⟨rfl, rfl⟩, ?_⟩
      refine isClean_cons.mpr ⟨fun hstray => hstray.not_head ⟨rfl, ?_⟩, isClean_nil⟩
      exact List.getLast?_concat
  | leftBrace | rightBrace =>
      exact isClean_of_forall (List.forall_mem_singleton.mpr (.inr (.inr (by decide))))
  | word hc hcs =>
      refine isClean_of_forall (List.forall_mem_cons.mpr ⟨?_, fun d hd => ?_⟩)
      · exact .inr (.inl (isNameChar_of_isNameStart hc))
      · exact .inr (.inl (hcs d hd))
  | @other c =>
      have hc := (isSome_classify_singleton ctx).mp htoken
      exact isClean_of_forall (List.forall_mem_singleton.mpr (.inr hc.symm))

/-- **A lexeme that is refused is a stray character**, unless it is the head of an arrow cut off. -/
theorem Shape.Spells.isStray (h : shape.Spells (c :: cs)) (hend : ¬ shape.GoesOn (c :: cs) after)
    (hblank : isBlank c = false) (hcut : KeepsArrows before (c :: (cs ++ after)))
    (hrefused : (classify ctx (String.ofList (c :: cs))).isSome = false) :
    cs = [] ∧ IsStray before c after := by
  cases h with
  | arrow | leftBrace | rightBrace =>
      rw [isSome_classify] at hrefused
      exact absurd hrefused (by decide)
  | word hc hcs =>
      have hname : isNameText (String.ofList (c :: cs)) = true := by
        simpa [isNameText, isNameChar_of_isNameStart hc] using hcs
      rw [isSome_classify, hname, Bool.or_true] at hrefused
      cases hrefused
  | other =>
      have hno : ¬ (c ∈ marks ∨ isNameChar c = true) := by
        rw [← isSome_classify_singleton ctx]
        exact Bool.eq_false_iff.mp hrefused
      rw [not_or, Bool.not_eq_true] at hno
      refine ⟨rfl, hblank, hno.2, hno.1, ?_, ?_⟩
      · rintro ⟨rfl, hhead⟩
        obtain ⟨rest, rfl⟩ := List.head?_eq_some_iff.mp hhead
        exact hend .arrow
      · rintro ⟨rfl, hdash⟩
        exact hcut ⟨hdash, rfl⟩

/-! ## The first stray character -/

/-- **Stray characters decide on a text**: it has none and is classified in every context, or in every
    context classification fails at the first of them. -/
inductive StraysDecide (before : List Char) (p : Cursor) (cs : List Char) : Prop where
  | clean : IsClean before cs [] →
      (∀ ctx, ∃ ts, tokensFrom ctx (lexemesFrom p cs) = .ok ts) → StraysDecide before p cs
  | stray (first rest : List Char) (c : Char) :
      cs = first ++ c :: rest → IsClean before first (c :: rest) → IsStray (before ++ first) c rest →
      (∀ ctx, tokensFrom ctx (lexemesFrom p cs) =
        .error ⟨String.singleton c, (p.advance first).position⟩) → StraysDecide before p cs

/-- They decide on a text if they decide on what follows its clean beginning, where classification goes
    on in some context. -/
theorem StraysDecide.extend (first : List Char) {p : Cursor}
    (hfirst : ∀ after, IsClean before first after)
    (hgoesOn : ∀ ctx, ∃ ctx' add, tokensFrom ctx (lexemesFrom p (first ++ cs)) =
      (tokensFrom ctx' (lexemesFrom (p.advance first) cs)).map add)
    (h : StraysDecide (before ++ first) (p.advance first) cs) :
    StraysDecide before p (first ++ cs) := by
  cases h with
  | clean hclean hok =>
      refine .clean (isClean_append.mpr ⟨hfirst _, hclean⟩) (fun ctx => ?_)
      obtain ⟨ctx', add, hnext⟩ := hgoesOn ctx
      obtain ⟨ts, hts⟩ := hok ctx'
      rw [hnext, hts]
      exact ⟨add ts, rfl⟩
  | stray second rest c hcs hclean hstray herror =>
      rw [List.append_assoc] at hstray
      refine .stray (first ++ second) rest c (by rw [hcs, List.append_assoc])
        (isClean_append.mpr ⟨hfirst _, hclean⟩) hstray (fun ctx => ?_)
      obtain ⟨ctx', add, hnext⟩ := hgoesOn ctx
      rw [hnext, herror, Cursor.advance_append]
      rfl

/-- A text that begins with a lexeme that is refused: its first character is stray. -/
theorem straysDecide_of_refused (p : Cursor) (hblank : isBlank c = false)
    (hcut : KeepsArrows before (c :: cs))
    (hrefused : (classify .empty (String.ofList (c :: (munch c cs).2.1))).isSome = false) :
    StraysDecide before p (c :: cs) := by
  obtain ⟨hspells, hend⟩ := spells_munch c cs
  have hcs := munch_append c cs
  rw [← hcs] at hcut
  obtain ⟨hnil, hstray⟩ := hspells.isStray hend hblank hcut hrefused
  rw [hnil, List.nil_append] at hcs
  rw [hcs] at hstray
  refine .stray [] cs c rfl isClean_nil (by rwa [List.append_nil]) (fun ctx => ?_)
  have hnone (ctx : Context) : classify ctx (String.ofList [c]) = none := by
    rw [← Option.not_isSome_iff_eq_none, isSome_classify, ← isSome_classify .empty, ← hnil, hrefused]
    exact Bool.false_ne_true
  rw [lexemesFrom_cons hblank, hnil]
  simp only [tokensFrom, hnone]
  rfl

/-- After a lexeme that is taken, classification goes on with what follows it, in some context. -/
theorem tokensFrom_lexemesFrom_of_taken (p : Cursor) (hblank : isBlank c = false)
    (htaken : (classify .empty (String.ofList (c :: (munch c cs).2.1))).isSome = true)
    (ctx : Context) :
    ∃ ctx' add, tokensFrom ctx (lexemesFrom p (c :: cs)) =
      (tokensFrom ctx' (lexemesFrom (p.advance (c :: (munch c cs).2.1)) (munch c cs).2.2)).map
        add := by
  have hsome : (classify (ctx.meet (String.ofList (c :: (munch c cs).2.1)))
      (String.ofList (c :: (munch c cs).2.1))).isSome = true := by
    rwa [isSome_classify, ← isSome_classify .empty]
  obtain ⟨kind, hkind⟩ := Option.isSome_iff_exists.mp hsome
  rw [lexemesFrom_cons hblank]
  exact ⟨_, _, tokensFrom_cons hkind⟩

/-- **Stray characters decide on every text** that does not begin within an arrow. -/
theorem straysDecide (p : Cursor) (cs : List Char) (hcut : KeepsArrows before cs) :
    StraysDecide before p cs := by
  -- What has been read grows with each lexeme, so it varies; it never ends within an arrow.
  fun_induction lexemesFrom p cs generalizing before with
  | case1 =>
      refine .clean isClean_nil (fun ctx => ⟨[], ?_⟩)
      rw [lexemesFrom_nil]
      rfl
  | case2 p c cs hblank ih =>
      refine .extend [c] (fun after => ?_) (fun ctx => ?_) (ih (keepsArrows_blank hblank))
      · exact isClean_of_forall (List.forall_mem_singleton.mpr (.inl hblank))
      · refine ⟨ctx, id, ?_⟩
        rw [List.singleton_append, lexemesFrom_blank hblank, Except.map_id]
        rfl
  | case3 p c cs hblank shape text =>
      rename_i ih
      have hvisible : isBlank c = false := Bool.eq_false_iff.mpr hblank
      cases htoken : (classify .empty (String.ofList text)).isSome with
      | false => exact straysDecide_of_refused p hvisible hcut htoken
      | true =>
          obtain ⟨hspells, hend⟩ := spells_munch c cs
          have htext : c :: cs = text ++ (munch c cs).2.2 :=
            congrArg (c :: ·) (munch_append c cs).symm
          have hrest : StraysDecide (before ++ text) (p.advance text) (munch c cs).2.2 :=
            ih (hspells.keepsArrows hend)
          rw [htext]
          refine .extend text (fun after => hspells.isClean htoken) (fun ctx => ?_) hrest
          rw [← htext]
          exact tokensFrom_lexemesFrom_of_taken p hvisible htoken ctx

/-- **A source has no tokens exactly if one of its characters is stray**, and the error is the first of
    them: its text is that character, and its row and column are those of the character's place. The
    index of lines tells the same place of the character's first byte. The context before plays no
    part: the error is the same whatever the brackets and the category before the source were. -/
theorem tokens_error_iff_stray (source : String) :
    ((∃ e, tokens source = .error e) ↔
      ∃ before c after, source.toList = before ++ c :: after ∧ IsStray before c after) ∧
    ∀ e, tokens source = .error e →
      ∃ before c after, source.toList = before ++ c :: after ∧ IsStray before c after ∧
        (∀ earlier d later, source.toList = earlier ++ d :: later → IsStray earlier d later →
          before.length ≤ earlier.length) ∧
        e.value = String.singleton c ∧ e.position = .after before ∧
        (LineIndex.ofText source.toList).position (String.utf8Len before) = e.position ∧
        ∀ ctx, tokensFrom ctx (lexemes source) = .error e := by
  have hcut : KeepsArrows [] source.toList := fun h => nomatch h.1
  rcases straysDecide .origin source.toList hcut with
    ⟨hclean, hok⟩ | ⟨before, after, c, hsource, hclean, hstray, herror⟩
  · obtain ⟨ts, hts⟩ := hok .empty
    have hnone (e : LexError) : tokens source ≠ .error e := by
      intro h
      rw [tokens, lexemes, hts] at h
      cases h
    refine ⟨iff_of_false (fun ⟨e, h⟩ => hnone e h) ?_, fun e h => absurd h (hnone e)⟩
    rintro ⟨before, c, after, hsource, hstray⟩
    rw [← List.append_nil after] at hstray
    exact hclean before c after hsource hstray
  · have htokens : tokens source = .error ⟨String.singleton c, .after before⟩ := by
      rw [tokens, lexemes, herror, position_advance]
    refine ⟨iff_of_true ⟨_, htokens⟩ ⟨before, c, after, hsource, hstray⟩, fun e h => ?_⟩
    obtain rfl : _ = e := Except.error.inj (htokens.symm.trans h)
    refine ⟨before, c, after, hsource, hstray, ?_, rfl, rfl, ?_, fun ctx => ?_⟩
    · intro earlier d later hsplit hd
      exact hclean.length_le hd (hsource.symm.trans hsplit)
    · rw [hsource, LineIndex.position_ofText]
    · rw [lexemes, herror, position_advance]

/-- Between brackets, on the second line, an arrow with one head more: the dash and the first head are
    right, the second head is stray, and none of the characters before is. -/
theorem tokens_error_iff_stray_second_head :
    let source := "START\u3000->[a9,\n 7->>b"
    let e : LexError := ⟨">", ⟨2, 5⟩⟩
    tokens source = .error e ∧
      ∃ before c after, source.toList = before ++ c :: after ∧ IsStray before c after ∧
        (∀ earlier d later, source.toList = earlier ++ d :: later → IsStray earlier d later →
          before.length ≤ earlier.length) ∧
        e.value = String.singleton c ∧ e.position = .after before ∧
        (LineIndex.ofText source.toList).position (String.utf8Len before) = e.position ∧
        ∀ ctx, tokensFrom ctx (lexemes source) = .error e := by
  intro source e
  have herror : tokens source = .error e := by decide +kernel
  exact ⟨herror, (tokens_error_iff_stray source).2 e herror⟩

end StateDiagram

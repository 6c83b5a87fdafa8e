import StateDiagram.Proofs.Cutting
import StateDiagram.Proofs.FirstError
import StateDiagram.Proofs.Spelling

/-!
# `Proofs.Diagnostics` — errors point at what they name

The row and the column of an error are those of a lexeme that the source has, and the text in the error
is that lexeme's: whoever looks up the place finds the text there. When the input ended too early, the
place is just past the last character that is no white space.

## Contents

* `ShownAt`, `EndsAt` — a source shows a text at a place, or ends there but for white space;
* `shownAt_of_mem_lexemes`, `endsAt_of_getLast_lexemes` — what lexemes show;
* `tokensFrom_eq_error`, `shownAt_of_mem_tokens` — lexical errors and tokens stand where lexemes do;
* `parse_error_place` — a syntax error stands at a token, or past the last one;
* `program_error_shown` — so every error points at what it names.
-/

namespace StateDiagram

/-! ## What a source shows at a place -/

/-- **A source shows a text at a place**: the place cuts the source right before the text, which is one of
    its lexemes. The index of lines tells the same place of the lexeme's first byte. -/
def ShownAt (source text : String) (p : Position) : Prop :=
  ∃ before rest, p.Cuts source.toList before (text.toList ++ rest) ∧
    ∃ l ∈ lexemes source, l.text = text ∧ l.start.offset = String.utf8Len before ∧
      (LineIndex.ofText source.toList).position l.start.offset = p

/-- **A source ends at a place**, but for white space: the place cuts it just past a character that is
    none, and nothing else comes after that. -/
def EndsAt (source : String) (p : Position) : Prop :=
  ∃ before c rest, p.Cuts source.toList (before ++ [c]) rest ∧ isBlank c = false ∧
    ∀ d ∈ rest, isBlank d = true

variable {source : String} {l : Lexeme} {ls : List Lexeme} {t : Token} {ts : List Token}
  {ctx : Context}

/-- **A source shows its lexemes**, each at its place. -/
theorem shownAt_of_mem_lexemes (h : l ∈ lexemes source) : ShownAt source l.text l.start.position := by
  obtain ⟨ls, ms, hsplit⟩ := List.append_of_mem h
  obtain ⟨before, rest, htext, hstart, -⟩ := lexemesFrom_split hsplit
  have hplace : l.start.position = .after before := by rw [hstart, position_advance]
  have hoffset : l.start.offset = String.utf8Len before := by
    rw [hstart, Cursor.offset_advance_origin]
  rw [List.append_assoc] at htext
  refine ⟨before, rest, ?_, l, h, rfl, hoffset, ?_⟩
  · rw [hplace, htext]
    exact Position.cuts_after _ _
  · rw [htext, hoffset, LineIndex.position_ofText, hplace]

/-- The place just past a lexeme. -/
def Lexeme.endPosition (l : Lexeme) : Position :=
  ⟨l.start.position.row, l.start.position.col + l.text.length⟩

/-- **A source ends just past its last lexeme.** -/
theorem endsAt_of_getLast_lexemes (h : (lexemes source).getLast? = some l) :
    EndsAt source l.endPosition := by
  obtain ⟨ls, hsplit⟩ := List.getLast?_eq_some_iff.mp h
  obtain ⟨before, rest, htext, hstart, hrest⟩ := lexemesFrom_split hsplit
  have hmem : l ∈ lexemes source := List.mem_of_getLast? h
  have hblank := isBlank_eq_false_of_mem_text hmem
  -- No line feed is in the lexeme, so its end is on its row, as many characters on as it has.
  have hline : '\n' ∉ l.text.toList := by
    intro hnewline
    have hno := hblank _ hnewline
    rw [isBlank_newline] at hno
    exact nomatch hno
  have hend : _ = l.endPosition := Cursor.position_advance_of_noNewline l.start hline
  rw [hstart, ← Cursor.advance_append, position_advance] at hend
  obtain ⟨init, c, hlast⟩ : ∃ init c, l.text.toList = init ++ [c] :=
    (List.eq_nil_or_concat' _).resolve_left (toList_ne_nil_of_mem hmem)
  have hsource : source.toList = before ++ init ++ [c] ++ rest := by
    rw [htext, hlast, List.append_assoc before init]
  refine ⟨before ++ init, c, rest, ?_, hblank c (by simp [hlast]),
    isBlank_of_lexemesFrom_eq_nil hrest⟩
  rw [← hend, hlast, hsource, ← List.append_assoc]
  exact Position.cuts_after _ _

/-! ## Tokens stand where lexemes do -/

/-- A lexical error has the text and the place of a lexeme. -/
theorem tokensFrom_eq_error {e : LexError} (h : tokensFrom ctx ls = .error e) :
    ∃ l ∈ ls, e = ⟨l.text, l.start.position⟩ := by
  induction ls generalizing ctx with
  | nil => cases h
  | cons l ls ih =>
      simp only [tokensFrom] at h
      split at h
      next => exact ⟨l, List.mem_cons_self, (Except.error.inj h).symm⟩
      next kind hkind =>
        cases hrest : tokensFrom ((ctx.meet l.text).follow kind) ls with
        | error e' =>
            rw [hrest] at h
            obtain rfl : e' = e := Except.error.inj h
            obtain ⟨l', hl', rfl⟩ := ih hrest
            exact ⟨l', List.mem_cons_of_mem _ hl', rfl⟩
        | ok us =>
            rw [hrest] at h
            cases h

/-- A token of a source stands where the lexeme with the same number does. -/
theorem exists_lexeme_of_getElem? {i : Nat} (h : tokens source = .ok ts) (ht : ts[i]? = some t) :
    ∃ l, (lexemes source)[i]? = some l ∧ t.value = l.text ∧ t.position = l.start.position := by
  have hplaces := congrArg (·[i]?) (tokensFrom_places h)
  simp only [List.getElem?_map, ht] at hplaces
  obtain ⟨l, hl, hplace⟩ := Option.map_eq_some_iff.mp hplaces.symm
  obtain ⟨htext, hposition⟩ := Prod.mk.inj hplace
  exact ⟨l, hl, htext.symm, hposition.symm⟩

/-- **A source shows its tokens**, each at its place. -/
theorem shownAt_of_mem_tokens (h : tokens source = .ok ts) (ht : t ∈ ts) :
    ShownAt source t.value t.position := by
  obtain ⟨i, hi⟩ := List.mem_iff_getElem?.mp ht
  obtain ⟨l, hl, htext, hposition⟩ := exists_lexeme_of_getElem? h hi
  rw [htext, hposition]
  exact shownAt_of_mem_lexemes (List.mem_of_getElem? hl)

/-- The last token of a source ends where the last lexeme does. -/
theorem exists_lexeme_of_getLast? (h : tokens source = .ok ts) (ht : ts.getLast? = some t) :
    ∃ l, (lexemes source).getLast? = some l ∧ t.endPosition = l.endPosition := by
  have hlast := congrArg List.getLast? (tokensFrom_places h)
  rw [List.getLast?_map, List.getLast?_map, ht] at hlast
  obtain ⟨l, hl, hplace⟩ := Option.map_eq_some_iff.mp hlast.symm
  obtain ⟨htext, hposition⟩ := Prod.mk.inj hplace
  refine ⟨l, hl, ?_⟩
  rw [Token.endPosition, Token.endCol, ← htext, ← hposition]
  rfl

/-- A source ends just past its last token. -/
theorem endsAt_of_getLast_tokens (h : tokens source = .ok ts) (ht : ts.getLast? = some t) :
    EndsAt source t.endPosition := by
  obtain ⟨l, hl, hend⟩ := exists_lexeme_of_getLast? h ht
  rw [hend]
  exact endsAt_of_getLast_lexemes hl

/-! ## Errors -/

/-- A syntax error stands at a token, with its text, or just past the last token, with none. -/
theorem parse_error_place {e : SyntaxError} (h : parse ts = .error e) :
    (∃ t ∈ ts, e.found = some t.value ∧ e.position = t.position) ∨
    (∃ last, ts.getLast? = some last ∧ e.found = none ∧ e.position = last.endPosition) := by
  rcases parse_eq_error_cases h with ⟨us, t, vs, u, rfl, -, hstep, -⟩ | ⟨s, hrun, hs, rfl⟩
  · obtain ⟨fault, rfl⟩ := step_eq_error hstep
    exact .inl ⟨t, by simp, rfl, rfl⟩
  · obtain ⟨last, hlast⟩ := getLast_of_incomplete hrun hs
    rw [atEnd_of_getLast hlast]
    exact .inr ⟨last, hlast, rfl, rfl⟩

/-- A source with a lexical error has no tokens. -/
theorem program_eq_lex_iff {e : LexError} :
    program source = .error (.lex e) ↔ tokens source = .error e := by
  cases htokens : tokens source with
  | error e' => simp [program_of_lexError htokens]
  | ok ts => cases hparse : parse ts <;> simp [program_of_tokens htokens, Except.mapError, hparse]

/-- A source with a syntax error has tokens that cannot be read. -/
theorem program_eq_syntaxError_iff {e : SyntaxError} :
    program source = .error (.syntaxError e) ↔
      ∃ ts, tokens source = .ok ts ∧ parse ts = .error e := by
  cases htokens : tokens source with
  | error e' => simp [program_of_lexError htokens]
  | ok ts => cases hparse : parse ts <;> simp [program_of_tokens htokens, Except.mapError, hparse]

/-- **Errors point at what they name.** The source shows the text of a lexical error at its place, and the
    text that a syntax error has found at that error's place. When a syntax error has found none, the
    source ends at its place, but for white space. -/
theorem program_error_shown (source : String) :
    (∀ e, program source = .error (.lex e) → ShownAt source e.value e.position) ∧
    (∀ e text, program source = .error (.syntaxError e) → e.found = some text →
      ShownAt source text e.position) ∧
    (∀ e, program source = .error (.syntaxError e) → e.found = none → EndsAt source e.position) := by
  refine ⟨fun e h => ?_, fun e text h hfound => ?_, fun e h hfound => ?_⟩
  · obtain ⟨l, hl, rfl⟩ := tokensFrom_eq_error (program_eq_lex_iff.mp h)
    exact shownAt_of_mem_lexemes hl
  · obtain ⟨ts, hts, hparse⟩ := program_eq_syntaxError_iff.mp h
    rcases parse_error_place hparse with ⟨t, ht, htext, hplace⟩ | ⟨last, hlast, hnone, hplace⟩
    · rw [hfound] at htext
      rw [Option.some.inj htext, hplace]
      exact shownAt_of_mem_tokens hts ht
    · rw [hfound] at hnone
      exact nomatch hnone
  · obtain ⟨ts, hts, hparse⟩ := program_eq_syntaxError_iff.mp h
    rcases parse_error_place hparse with ⟨t, ht, htext, hplace⟩ | ⟨last, hlast, hnone, hplace⟩
    · rw [hfound] at htext
      exact nomatch htext
    · rw [hplace]
      exact endsAt_of_getLast_tokens hts hlast

/-- Columns count characters, also where these have more than one byte: no letter of a name, no state
    after an arrow, and no end of a block. -/
theorem program_error_shown_beyond_ascii :
    (program "START\u3000é" = .error (.lex ⟨"é", ⟨1, 7⟩⟩) ∧
      ShownAt "START\u3000é" "é" ⟨1, 7⟩) ∧
    (program "START\u3000->\n\u00a0;" = .error (.syntaxError ⟨.expected .startState, some ";", ⟨2, 2⟩⟩) ∧
      ShownAt "START\u3000->\n\u00a0;" ";" ⟨2, 2⟩) ∧
    (program "def\u3000m \x7b\u2028\n" = .error (.syntaxError ⟨.unexpectedEnd, none, ⟨1, 8⟩⟩) ∧
      EndsAt "def\u3000m \x7b\u2028\n" ⟨1, 8⟩) := by
  have hlex : program "START\u3000é" = .error (.lex ⟨"é", ⟨1, 7⟩⟩) := by decide +kernel
  have hfound : program "START\u3000->\n\u00a0;" =
      .error (.syntaxError ⟨.expected .startState, some ";", ⟨2, 2⟩⟩) := by decide +kernel
  have hend : program "def\u3000m \x7b\u2028\n" =
      .error (.syntaxError ⟨.unexpectedEnd, none, ⟨1, 8⟩⟩) := by decide +kernel
  exact ⟨⟨hlex, (program_error_shown _).1 _ hlex⟩,
    ⟨hfound, (program_error_shown _).2.1 _ _ hfound rfl⟩,
    hend, (program_error_shown _).2.2 _ hend rfl⟩

end StateDiagram

import StateDiagram.Proofs.Diagnostics
import StateDiagram.Proofs.Normalized

/-!
# `Proofs.Respacing` — white space says nothing

Two sources with the same lexemes, in text and in order, differ in white space only, and are read alike.
Either both have the same program, or both have the same error, each at its own place: that of the
lexeme with the same number, or just past the last one.

Places are taken along from the lexemes to the tokens and from the tokens to the errors, and nothing is
ever decided by them. This is a statement on two runs at each stage: side by side, they are in the same
state after every lexeme, and they fail at the same one.

## Contents

* `Token.content` — a token without its place;
* `step_respaced`, `run_respaced`, `parse_respaced` — parsing on tokens of the same content;
* `tokensFrom_respaced` — lexing on lexemes of the same text;
* `filter_eq_flatMap_lexemesFrom` — lexemes are all of a source but its white space;
* `SourceError.Matches` — the same error of two sources;
* `program_respaced` — two sources with the same lexemes have the same program or the same error.
-/

namespace StateDiagram

variable {rules : Rules} {s : ParseState} {t t' : Token} {ts ts' : List Token} {l : Lexeme}
  {ls ls' : List Lexeme} {ctx : Context} {i : Nat}

/-! ## Parsing -/

/-- A token without its place: its category and its text. -/
def Token.content (t : Token) : Kind × String :=
  (t.kind, t.value)

/-- **A token is read without regard to its place.** Two of the same content lead to the same state, or
    are the same error, each at its place. -/
theorem step_respaced (rules : Rules) (s : ParseState) (h : t.content = t'.content) :
    (∃ u, rules.step s t = .ok u ∧ rules.step s t' = .ok u) ∨
    (∃ fault, rules.step s t = .error (.atToken fault t) ∧
      rules.step s t' = .error (.atToken fault t')) := by
  obtain ⟨kind, value, p⟩ := t
  obtain ⟨kind', value', p'⟩ := t'
  obtain ⟨rfl, rfl⟩ := Prod.mk.inj h
  have hstep : rules.step? s ⟨kind, value, p'⟩ = rules.step? s ⟨kind, value, p⟩ := rfl
  have hfault : s.point.fault (some ⟨kind, value, p'⟩) = s.point.fault (some ⟨kind, value, p⟩) := by
    cases s.point <;> rfl
  unfold Rules.step
  rw [hstep, hfault]
  cases rules.step? s ⟨kind, value, p⟩ with
  | none => exact .inr ⟨_, rfl, rfl⟩
  | some next =>
      cases rules.limit with
      | none => exact .inl ⟨next, rfl, rfl⟩
      | some limit =>
          dsimp only
          split
          · exact .inl ⟨next, rfl, rfl⟩
          · exact .inr ⟨_, rfl, rfl⟩

/-- **Tokens are read without regard to their places.** Two lists of the same content lead to the same
    state, or fail at tokens with the same number for the same reason. -/
theorem run_respaced (rules : Rules) (s : ParseState)
    (h : ts.map Token.content = ts'.map Token.content) :
    (∃ u, rules.run s ts = .ok u ∧ rules.run s ts' = .ok u) ∨
    (∃ (i : Nat) (t t' : Token) (fault : Fault), ts[i]? = some t ∧ ts'[i]? = some t' ∧
      rules.run s ts = .error (.atToken fault t) ∧
      rules.run s ts' = .error (.atToken fault t')) := by
  induction ts generalizing s ts' with
  | nil =>
      obtain rfl := List.map_eq_nil_iff.mp h.symm
      exact .inl ⟨s, rfl, rfl⟩
  | cons t ts ih =>
      obtain ⟨t', ts', rfl, ht, hts⟩ := List.map_eq_cons_iff.mp h.symm
      rw [Rules.run_cons, Rules.run_cons]
      rcases step_respaced rules s ht.symm with ⟨u, hu, hu'⟩ | ⟨fault, hfail, hfail'⟩
      · rw [hu, hu']
        rcases ih u hts.symm with hboth | ⟨i, t₁, t₁', fault, hi, hi', hfail, hfail'⟩
        · exact .inl hboth
        · exact .inr ⟨i + 1, t₁, t₁', fault, hi, hi', hfail, hfail'⟩
      · rw [hfail, hfail']
        exact .inr ⟨0, t, t', fault, rfl, rfl, rfl, rfl⟩

/-- **Parsing pays no regard to places.** Two lists of the same content have the same program, or fail for
    the same reason: at tokens with the same number, or both where they end. -/
theorem parse_respaced (rules : Rules) (h : ts.map Token.content = ts'.map Token.content) :
    (∃ program, rules.parse ts = .ok program ∧ rules.parse ts' = .ok program) ∨
    (∃ (i : Nat) (t t' : Token) (fault : Fault), ts[i]? = some t ∧ ts'[i]? = some t' ∧
      rules.parse ts = .error (.atToken fault t) ∧
      rules.parse ts' = .error (.atToken fault t')) ∨
    (∃ fault, rules.parse ts = .error (.atEnd fault ts) ∧
      rules.parse ts' = .error (.atEnd fault ts')) := by
  rcases run_respaced rules .initial h with
    ⟨s, hs, hs'⟩ | ⟨i, t, t', fault, ht, ht', hfail, hfail'⟩
  · have hparse : rules.parse ts = s.finish ts := by
      rw [Rules.parse, hs]
      rfl
    have hparse' : rules.parse ts' = s.finish ts' := by
      rw [Rules.parse, hs']
      rfl
    rw [hparse, hparse', ParseState.finish, ParseState.finish]
    -- Whether the state is that of a program does not depend on the tokens.
    split
    · exact .inl ⟨_, rfl, rfl⟩
    · exact .inr (.inr ⟨_, rfl, rfl⟩)
  · refine .inr (.inl ⟨i, t, t', fault, ht, ht', ?_, ?_⟩)
    · rw [Rules.parse, hfail]
      rfl
    · rw [Rules.parse, hfail']
      rfl

/-- Tokens that end too early have a last one, as no tokens at all are a program. -/
theorem exists_getLast_of_atEnd {fault : Fault} (h : rules.parse ts = .error (.atEnd fault ts)) :
    ∃ last, ts.getLast? = some last ∧
      SyntaxError.atEnd fault ts = ⟨fault, none, last.endPosition⟩ := by
  cases hlast : ts.getLast? with
  | some last => exact ⟨last, rfl, atEnd_of_getLast hlast⟩
  | none =>
      rw [List.getLast?_eq_none_iff] at hlast
      subst hlast
      cases h

/-! ## Lexing -/

/-- **Lexemes are classified without regard to their places.** Two lists of the same texts become tokens of
    the same content, or fail at lexemes with the same number. -/
theorem tokensFrom_respaced (ctx : Context) (h : ls.map Lexeme.text = ls'.map Lexeme.text) :
    (∃ ts ts', tokensFrom ctx ls = .ok ts ∧ tokensFrom ctx ls' = .ok ts' ∧
      ts.map Token.content = ts'.map Token.content) ∨
    (∃ (i : Nat) (l l' : Lexeme), ls[i]? = some l ∧ ls'[i]? = some l' ∧
      tokensFrom ctx ls = .error ⟨l.text, l.start.position⟩ ∧
      tokensFrom ctx ls' = .error ⟨l.text, l'.start.position⟩) := by
  induction ls generalizing ctx ls' with
  | nil =>
      obtain rfl := List.map_eq_nil_iff.mp h.symm
      exact .inl ⟨[], [], rfl, rfl, rfl⟩
  | cons l ls ih =>
      obtain ⟨l', ls', rfl, hl, hls⟩ := List.map_eq_cons_iff.mp h.symm
      cases hkind : classify (ctx.meet l.text) l.text with
      | none =>
          have hfail (m : Lexeme) (ms : List Lexeme) (hm : m.text = l.text) :
              tokensFrom ctx (m :: ms) = .error ⟨l.text, m.start.position⟩ := by
            simp only [tokensFrom, hm, hkind]
          exact .inr ⟨0, l, l', rfl, rfl, hfail l ls rfl, hfail l' ls' hl⟩
      | some kind =>
          rw [tokensFrom_cons hkind, tokensFrom_cons (hl ▸ hkind), hl]
          rcases ih ((ctx.meet l.text).follow kind) hls.symm with
            ⟨ts, ts', hts, hts', hcontent⟩ | ⟨i, m, m', hm, hm', hfail, hfail'⟩
          · rw [hts, hts']
            refine .inl ⟨_, _, rfl, rfl, ?_⟩
            rw [List.map_cons, List.map_cons, hcontent]
            rfl
          · rw [hfail, hfail']
            exact .inr ⟨i + 1, m, m', hm, hm', rfl, rfl⟩

/-- **Lexemes are all of a text but its white space.** -/
theorem filter_eq_flatMap_lexemesFrom (p : Cursor) (cs : List Char) :
    cs.filter (!isBlank ·) = (lexemesFrom p cs).flatMap (·.text.toList) := by
  fun_induction lexemesFrom p cs with
  | case1 => rfl
  | case2 p c cs hblank ih => rw [List.filter_cons_of_neg (by simp [hblank]), ih]
  | case3 p c cs hblank shape text ih =>
      have htext : c :: cs = text ++ (munch c cs).2.2 :=
        congrArg (c :: ·) (munch_append c cs).symm
      have hkeep : text.filter (!isBlank ·) = text := by
        rw [List.filter_eq_self]
        intro d hd
        rw [isBlank_eq_false_of_mem_munch (Bool.eq_false_iff.mpr hblank) d hd]
        rfl
      rw [htext, List.filter_append, hkeep, ih, List.flatMap_cons, String.toList_ofList]

/-- The texts of its lexemes are all of a source but its white space. -/
theorem filter_eq_flatMap_lexemeTexts (source : String) :
    source.toList.filter (!isBlank ·) = (lexemeTexts source).flatMap String.toList := by
  rw [lexemeTexts, List.flatMap_map]
  exact filter_eq_flatMap_lexemesFrom .origin source.toList

/-! ## Two sources -/

variable {source source' : String}

/-- **The same error of two sources**, each at its own place: that of the lexeme with the same number, which
    is told in the error, or just past the last lexeme. -/
inductive SourceError.Matches (source source' : String) : SourceError → SourceError → Prop where
  | lex {i : Nat} {l l' : Lexeme} : (lexemes source)[i]? = some l → (lexemes source')[i]? = some l' →
      Matches source source' (.lex ⟨l.text, l.start.position⟩) (.lex ⟨l.text, l'.start.position⟩)
  | atLexeme {fault : Fault} {i : Nat} {l l' : Lexeme} :
      (lexemes source)[i]? = some l → (lexemes source')[i]? = some l' →
      Matches source source' (.syntaxError ⟨fault, some l.text, l.start.position⟩)
        (.syntaxError ⟨fault, some l.text, l'.start.position⟩)
  | atEnd {fault : Fault} {l l' : Lexeme} :
      (lexemes source).getLast? = some l → (lexemes source').getLast? = some l' →
      Matches source source' (.syntaxError ⟨fault, none, l.endPosition⟩)
        (.syntaxError ⟨fault, none, l'.endPosition⟩)

/-- **Two sources with the same lexemes are read alike**: they have the same program, or the same error. -/
theorem program_respaced_cases (h : lexemeTexts source = lexemeTexts source') :
    (∃ p, program source = .ok p ∧ program source' = .ok p) ∨
    (∃ e e', program source = .error e ∧ program source' = .error e' ∧
      e.Matches source source' e') := by
  rcases tokensFrom_respaced .empty h with
    ⟨ts, ts', hts, hts', hcontent⟩ | ⟨i, l, l', hl, hl', hfail, hfail'⟩
  · rw [program_of_tokens hts, program_of_tokens hts', parse, parse]
    rcases parse_respaced .standard hcontent with
      ⟨p, hp, hp'⟩ | ⟨i, t, t', fault, ht, ht', hfail, hfail'⟩ | ⟨fault, hfail, hfail'⟩
    · rw [hp, hp']
      exact .inl ⟨p, rfl, rfl⟩
    · obtain ⟨l, hl, hvalue, hposition⟩ := exists_lexeme_of_getElem? hts ht
      obtain ⟨l', hl', hvalue', hposition'⟩ := exists_lexeme_of_getElem? hts' ht'
      have htext : l'.text = l.text := by
        have htexts := congrArg (·[i]?) h
        simp only [lexemeTexts, List.getElem?_map, hl, hl'] at htexts
        exact (Option.some.inj htexts).symm
      rw [hfail, hfail', SyntaxError.atToken, SyntaxError.atToken, hvalue, hvalue', htext, hposition,
        hposition']
      exact .inr ⟨_, _, rfl, rfl, .atLexeme hl hl'⟩
    · obtain ⟨t, ht, hend⟩ := exists_getLast_of_atEnd hfail
      obtain ⟨t', ht', hend'⟩ := exists_getLast_of_atEnd hfail'
      obtain ⟨l, hl, hposition⟩ := exists_lexeme_of_getLast? hts ht
      obtain ⟨l', hl', hposition'⟩ := exists_lexeme_of_getLast? hts' ht'
      rw [hfail, hfail', hend, hend', hposition, hposition']
      exact .inr ⟨_, _, rfl, rfl, .atEnd hl hl'⟩
  · rw [program_of_lexError hfail, program_of_lexError hfail']
    exact .inr ⟨_, _, rfl, rfl, .lex hl hl'⟩

/-- **White space between lexemes says nothing.** Sources with the same lexemes have the same characters but
    for white space. They have the same program, or the same error: for the same reason, with the same
    text, and at lexemes with the same number. So their graphs have the same text under every layout. -/
theorem program_respaced (source source' : String) (h : lexemeTexts source = lexemeTexts source') :
    source.toList.filter (!isBlank ·) = source'.toList.filter (!isBlank ·) ∧
    ((∃ p, program source = .ok p ∧ program source' = .ok p) ∨
      (∃ e e', program source = .error e ∧ program source' = .error e' ∧
        e.Matches source source' e')) ∧
    ∀ layout text, compile layout source = .ok text → compile layout source' = .ok text := by
  refine ⟨?_, program_respaced_cases h, fun layout text hcompile => ?_⟩
  · rw [filter_eq_flatMap_lexemeTexts, filter_eq_flatMap_lexemeTexts, h]
  · obtain ⟨p, hp, hdot⟩ := compile_eq_ok_iff.mp hcompile
    rcases program_respaced_cases h with ⟨q, hq, hq'⟩ | ⟨e, e', he, -⟩
    · rw [hp] at hq
      obtain rfl := Except.ok.inj hq
      exact compile_eq_ok_iff.mpr ⟨p, hq', hdot⟩
    · rw [hp] at he
      cases he

/-- An ideographic space, a line feed and a line separator, a no-break space: in both sources the semicolon
    is missing at the fourth lexeme, wherever that stands. -/
theorem program_respaced_beyond_ascii :
    let source := "START -> q END"
    let source' := "START\u3000->\n\u2028q\u00a0END\t"
    lexemeTexts source = lexemeTexts source' ∧
      source.toList.filter (!isBlank ·) = source'.toList.filter (!isBlank ·) ∧
      (∃ e e', program source = .error e ∧ program source' = .error e' ∧
        e.Matches source source' e') ∧
      program source' = .error (.syntaxError ⟨.expected .startEnd, some "END", ⟨2, 4⟩⟩) := by
  intro source source'
  have htexts : lexemeTexts source = lexemeTexts source' := by decide +kernel
  have hprogram : program source' =
      .error (.syntaxError ⟨.expected .startEnd, some "END", ⟨2, 4⟩⟩) := by decide +kernel
  obtain ⟨hchars, hread, -⟩ := program_respaced source source' htexts
  refine ⟨htexts, hchars, hread.resolve_left ?_, hprogram⟩
  rintro ⟨p, -, hp⟩
  rw [hprogram] at hp
  cases hp

end StateDiagram

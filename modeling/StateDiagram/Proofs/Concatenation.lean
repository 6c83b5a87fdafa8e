import StateDiagram.Proofs.GraphView
import StateDiagram.Proofs.Respacing

/-!
# `Proofs.Concatenation` — one source after another

A source with a program may stand before any other source, with a line feed between the two. The first
leaves nothing behind that the second could notice: its brackets are closed and its last token is none
that a state follows, so lexing goes on as from nothing; no block is open, so parsing does too, and what
has been read of the first is only what the program begins with. What the second has to say then comes
as it is, programs after those of the first, and errors as many rows further down as the first has lines.

## Contents

* `ParseState.after`, `run_after`, `parse_append` — statements read earlier only come before the program;
* `Position.below`, `parse_below` — tokens further down only move errors;
* `Cursor.moved`, `lexemesFrom_moved`, `tokensFrom_moved` — so do lexemes;
* `tokensFrom_append`, `tokensFrom_of_not_wantsState` — lexing goes on, and needs to know little;
* `tokens_join`, `program_join` — the tokens and the program of two sources;
* `program_concat` — programs, texts of graphs and errors of two sources.
-/

namespace StateDiagram

/-! ## Statements read earlier -/

/-- The open blocks and the statements of the innermost, with statements more before the outermost. -/
def stacked (earlier : List Statement) : List Block → List Statement → List Block × List Statement
  | [], body => ([], body ++ earlier)
  | b :: bs, body =>
    (⟨b.head, (stacked earlier bs b.before).2⟩ :: (stacked earlier bs b.before).1, body)

/-- The machine when it has read some statements before all that it has read. -/
def ParseState.after (earlier : List Statement) (s : ParseState) : ParseState :=
  ⟨(stacked earlier.reverse s.blocks s.body).1, (stacked earlier.reverse s.blocks s.body).2, s.point⟩

variable {rules : Rules} {s : ParseState} {t : Token} {ts us : List Token} {earlier a : List Statement}

/-- A machine that has read a program stands as at its start, but for the program. -/
theorem complete_eq_after (a : List Statement) : ParseState.complete a = ParseState.initial.after a :=
  rfl

theorem length_stacked (earlier : List Statement) (bs : List Block) (body : List Statement) :
    (stacked earlier bs body).1.length = bs.length := by
  induction bs generalizing body with
  | nil => rfl
  | cons b bs ih => exact congrArg (· + 1) (ih b.before)

theorem length_blocks_after : (s.after earlier).blocks.length = s.blocks.length :=
  length_stacked _ _ _

/-- A statement more comes after those read earlier. -/
theorem after_push (done : Statement) : (s.after earlier).push done = (s.push done).after earlier := by
  obtain ⟨blocks, body, point⟩ := s
  cases blocks <;> rfl

theorem start?_after : (s.after earlier).start? t = (s.start? t).map (·.after earlier) := by
  unfold ParseState.start?
  cases t.kind with
  | beginMark | endMark => exact congrArg some (after_push _)
  | _ => rfl

theorem wants_after {kind : Kind} {next next' : ParseState} (h : next' = next.after earlier) :
    Rules.step?.wants rules t kind next' =
      (Rules.step?.wants rules t kind next).map (·.after earlier) := by
  unfold Rules.step?.wants
  split
  · exact congrArg some h
  · rfl

theorem between?_after :
    rules.between? (s.after earlier) t = (rules.between? s t).map (·.after earlier) := by
  obtain ⟨blocks, body, point⟩ := s
  cases blocks with
  | nil => exact start?_after
  | cons b bs =>
      show (if _ then _ else if _ then _ else _) = Option.map _ (if _ then _ else if _ then _ else _)
      split
      · rfl
      · split
        · rfl
        · exact start?_after

/-- **Statements read earlier make no difference to a step.** -/
theorem step?_after :
    rules.step? (s.after earlier) t = (rules.step? s t).map (·.after earlier) := by
  obtain ⟨blocks, body, point⟩ := s
  cases point with
  | statement => exact between?_after
  | semicolon done => exact wants_after (after_push done)
  | listState owner states =>
      show (if _ then _ else if _ then _ else _) = Option.map _ (if _ then _ else if _ then _ else _)
      split
      · rfl
      · split <;> rfl
  | listSeparator owner states =>
      show (if _ then _ else if _ then _ else _) = Option.map _ (if _ then _ else if _ then _ else _)
      split
      · rfl
      · split <;> rfl
  | machineName | machineBrace _ | stateName | stateArrow _ | stateBrace _ | startArrow | startState
  | listArrow _ | listBracket _ => exact wants_after rfl

theorem step_after :
    rules.step (s.after earlier) t = (rules.step s t).map (·.after earlier) := by
  unfold Rules.step
  rw [step?_after]
  cases rules.step? s t with
  | none => rfl
  | some next =>
      cases hlimit : rules.limit with
      | none => rfl
      | some limit =>
          dsimp only [Option.map_some]
          rw [length_blocks_after]
          split <;> rfl

/-- **Statements read earlier make no difference to a run.** -/
theorem run_after : rules.run (s.after earlier) ts = (rules.run s ts).map (·.after earlier) := by
  induction ts generalizing s with
  | nil => rfl
  | cons t ts ih =>
      rw [Rules.run_cons, Rules.run_cons, step_after]
      cases rules.step s t with
      | error e => rfl
      | ok u => exact ih

theorem isComplete_after : (s.after earlier).isComplete = s.isComplete := by
  obtain ⟨blocks, body, point⟩ := s
  cases blocks <;> rfl

/-- The program read is what was read earlier and what was read since. -/
theorem reverse_body_after (h : s.isComplete = true) :
    (s.after earlier).body.reverse = earlier ++ s.body.reverse := by
  obtain ⟨blocks, body, point⟩ := s
  cases blocks with
  | nil => exact (List.reverse_append ..).trans (by rw [List.reverse_reverse])
  | cons b bs => exact nomatch h

/-- The end of tokens is an error at the last of them, whatever was before. -/
theorem atEnd_append {fault : Fault} {last : Token} (h : us.getLast? = some last) :
    SyntaxError.atEnd fault (ts ++ us) = SyntaxError.atEnd fault us := by
  unfold SyntaxError.atEnd
  rw [List.getLast?_append, h]
  rfl

/-- **The tokens of a program may stand before any others**: the program of the others follows, and their
    errors stay. -/
theorem parse_append (h : parse ts = .ok a) (us : List Token) :
    parse (ts ++ us) = (parse us).map (a ++ ·) := by
  have hrun : Rules.standard.run .initial ts = .ok (ParseState.initial.after a) := by
    unfold parse Rules.parse at h
    cases hs : Rules.standard.run .initial ts with
    | error e =>
        rw [hs] at h
        exact nomatch h
    | ok s =>
        rw [hs] at h
        rw [finish_eq_ok_iff.mp h, complete_eq_after]
  have hsplit : parse (ts ++ us) =
      (Rules.standard.run (ParseState.initial.after a) us).bind (·.finish (ts ++ us)) := by
    unfold parse Rules.parse
    rw [Rules.run_append, hrun]
    rfl
  rw [hsplit, run_after]
  unfold parse Rules.parse
  cases hu : Rules.standard.run .initial us with
  | error e => rfl
  | ok u =>
      show (u.after a).finish (ts ++ us) = (u.finish us).map (a ++ ·)
      unfold ParseState.finish
      rw [isComplete_after]
      cases hcomplete : u.isComplete with
      | true => exact congrArg Except.ok (reverse_body_after hcomplete)
      | false =>
          obtain ⟨last, hlast⟩ := getLast_of_incomplete (runs_of_standard_run hu) hcomplete
          exact congrArg Except.error (atEnd_append hlast)

/-! ## Tokens further down -/

/-- A place some rows further down. -/
def Position.below (rows : Nat) (p : Position) : Position :=
  ⟨p.row + rows, p.col⟩

/-- A token some rows further down. -/
def Token.below (rows : Nat) (t : Token) : Token :=
  ⟨t.kind, t.value, t.position.below rows⟩

/-- A lexical error some rows further down. -/
def LexError.below (rows : Nat) (e : LexError) : LexError :=
  ⟨e.value, e.position.below rows⟩

/-- A syntax error some rows further down. -/
def SyntaxError.below (rows : Nat) (e : SyntaxError) : SyntaxError :=
  ⟨e.fault, e.found, e.position.below rows⟩

/-- **An error some rows further down**: only its row is another. -/
def SourceError.below (rows : Nat) : SourceError → SourceError
  | lex e => .lex (e.below rows)
  | syntaxError e => .syntaxError (e.below rows)

variable {rows : Nat}

/-- **Tokens further down spell the same program**, or have the same error further down. -/
theorem parse_below (rows : Nat) (ts : List Token) :
    parse (ts.map (Token.below rows)) = (parse ts).mapError (·.below rows) := by
  have hcontent : ts.map Token.content = (ts.map (Token.below rows)).map Token.content := by
    rw [List.map_map]
    rfl
  unfold parse
  rcases parse_respaced .standard hcontent with
    ⟨p, hp, hp'⟩ | ⟨i, t, t', fault, ht, ht', hfail, hfail'⟩ | ⟨fault, hfail, hfail'⟩
  · rw [hp, hp']
    rfl
  · rw [List.getElem?_map, ht] at ht'
    obtain rfl := Option.some.inj ht'
    rw [hfail, hfail']
    rfl
  · obtain ⟨last, hlast, hend⟩ := exists_getLast_of_atEnd hfail
    have hlast' : (ts.map (Token.below rows)).getLast? = some (last.below rows) := by
      rw [List.getLast?_map, hlast]
      rfl
    rw [hfail, hfail', hend, atEnd_of_getLast hlast']
    rfl

/-! ## Lexemes further down -/

/-- A cursor some bytes on and some rows further down. -/
def Cursor.moved (bytes rows : Nat) (p : Cursor) : Cursor :=
  ⟨p.offset + bytes, p.position.below rows⟩

/-- A lexeme some bytes on and some rows further down. -/
def Lexeme.moved (bytes rows : Nat) (l : Lexeme) : Lexeme :=
  ⟨l.shape, l.text, l.start.moved bytes rows⟩

variable {bytes : Nat} {p : Cursor} {cs : List Char} {ls ms : List Lexeme} {ctx : Context}

theorem next_moved (c : Char) : (p.moved bytes rows).next c = (p.next c).moved bytes rows := by
  unfold Cursor.next Cursor.moved Position.next Position.below
  split
  · simp only [Cursor.mk.injEq, Position.mk.injEq, and_true]
    omega
  · simp only [Cursor.mk.injEq, and_true]
    omega

theorem advance_moved : (p.moved bytes rows).advance cs = (p.advance cs).moved bytes rows := by
  induction cs generalizing p with
  | nil => rfl
  | cons c cs ih => rw [Cursor.advance_cons, Cursor.advance_cons, next_moved, ih]

/-- **A text is cut alike wherever it begins.** -/
theorem lexemesFrom_moved :
    lexemesFrom (p.moved bytes rows) cs = (lexemesFrom p cs).map (Lexeme.moved bytes rows) := by
  fun_induction lexemesFrom p cs with
  | case1 => rw [lexemesFrom_nil, List.map_nil]
  | case2 p c cs hblank ih => rw [lexemesFrom_blank hblank, next_moved, ih]
  | case3 p c cs hblank shape text ih =>
      rw [lexemesFrom_cons (Bool.eq_false_iff.mpr hblank), advance_moved]
      exact congrArg (_ :: ·) ih

/-- **Lexemes further down become tokens further down**, or have the same error further down. -/
theorem tokensFrom_moved :
    tokensFrom ctx (ls.map (Lexeme.moved bytes rows)) =
      ((tokensFrom ctx ls).map (List.map (Token.below rows))).mapError (·.below rows) := by
  induction ls generalizing ctx with
  | nil => rfl
  | cons l ls ih =>
      have htext : (l.moved bytes rows).text = l.text := rfl
      simp only [List.map_cons, tokensFrom, htext, ih]
      cases classify (ctx.meet l.text) l.text with
      | none => rfl
      | some kind =>
          dsimp only
          cases tokensFrom ((ctx.meet l.text).follow kind) ls with
          | error e => rfl
          | ok ts => rfl

/-! ## Lexing goes on -/

/-- **Lexing goes on** from the context that the tokens so far have left. -/
theorem tokensFrom_append (h : tokensFrom ctx ls = .ok ts) (hts : ∀ t ∈ ts, t.IsSpelled)
    (ms : List Lexeme) :
    tokensFrom ctx (ls ++ ms) = (tokensFrom (ctx.readAll ts) ms).map (ts ++ ·) := by
  induction ls generalizing ctx ts with
  | nil =>
      obtain rfl := Except.ok.inj h
      rw [List.nil_append, readAll_nil]
      cases tokensFrom ctx ms <;> rfl
  | cons l ls ih =>
      obtain ⟨kind, us, hkind, hrest, rfl⟩ := exists_of_tokensFrom_cons h
      rw [List.forall_mem_cons] at hts
      have hread : (ctx.meet l.text).follow kind = ctx.read kind := hts.1.meet_follow
      rw [List.cons_append, tokensFrom_cons hkind, ih hrest hts.2, readAll_cons, ← hread]
      cases tokensFrom (((ctx.meet l.text).follow kind).readAll us) ms <;> rfl

/-- Where no state is wanted, a lexeme is classified as at the beginning of a source. -/
theorem classify_of_not_wantsState (h : ctx.wantsState = false) (text : String) :
    classify (ctx.meet text) text = classify (Context.empty.meet text) text := by
  have hopen := Context.inBrackets_of_wantsState h
  have hwants : (ctx.meet text).wantsState = (Context.empty.meet text).wantsState := by
    unfold Context.meet
    split
    · simp [Context.wantsState]
    · split
      · simpa [Context.wantsState, Context.empty, hopen] using h
      · exact h
  unfold classify
  rw [hwants]

/-- **Where no state is wanted, lexing goes on as from nothing.** -/
theorem tokensFrom_of_not_wantsState (h : ctx.wantsState = false) (ls : List Lexeme) :
    tokensFrom ctx ls = tokensFrom .empty ls := by
  cases ls with
  | nil => rfl
  | cons l ls =>
      have hopen := Context.inBrackets_of_wantsState h
      have hfollow (kind : Kind) :
          (ctx.meet l.text).follow kind = (Context.empty.meet l.text).follow kind := by
        simp only [Context.meet, Context.follow, Context.empty]
        split
        · rfl
        · split
          · rfl
          · rw [hopen]
      simp only [tokensFrom, classify_of_not_wantsState h, hfollow]

/-! ## Two sources -/

variable {source source' : String}

/-- The lexemes of two sources with a line feed between them. -/
theorem lexemes_join (source source' : String) :
    lexemes (source ++ "\n" ++ source') =
      lexemes source ++ (lexemes source').map
        (Lexeme.moved (String.utf8Len (source.toList ++ ['\n'])) (source.toList.count '\n' + 1)) := by
  have htext : (source ++ "\n" ++ source').toList = source.toList ++ '\n' :: source'.toList := by
    simp
  have hcursor : Cursor.origin.advance (source.toList ++ ['\n']) =
      Cursor.origin.moved (String.utf8Len (source.toList ++ ['\n']))
        (source.toList.count '\n' + 1) := by
    have hoffset := Cursor.offset_advance_origin (source.toList ++ ['\n'])
    have hposition := position_advance (source.toList ++ ['\n'])
    rw [Position.after_newline] at hposition
    unfold Cursor.moved Position.below
    rw [← hoffset, Cursor.mk.injEq, hposition]
    simp only [Cursor.origin, Position.origin, Position.mk.injEq, and_true]
    omega
  unfold lexemes
  rw [htext, lexemesFrom_append_blank isBlank_newline, hcursor, lexemesFrom_moved]

/-- **The tokens of two sources**, the first of which has a program: those of the first, and those of the
    second further down, or its lexical error further down. -/
theorem tokens_join (h : tokens source = .ok ts) (hprogram : IsProgram a ts) (source' : String) :
    tokens (source ++ "\n" ++ source') =
      ((tokens source').map fun us =>
        ts ++ us.map (Token.below (source.toList.count '\n' + 1))).mapError
          (·.below (source.toList.count '\n' + 1)) := by
  -- A program ends where names are declared, which is how the second source begins.
  have hwants : (Context.empty.readAll ts).wantsState = false := (hprogram.placed .empty rfl).2
  unfold tokens at h ⊢
  rw [lexemes_join, tokensFrom_append h (isSpelled_of_mem_tokens h),
    tokensFrom_of_not_wantsState hwants, tokensFrom_moved]
  cases tokensFrom .empty (lexemes source') <;> rfl

/-- **The program of two sources**, the first of which has one: the programs of both, or the error of the
    second further down. -/
theorem program_join (h : program source = .ok a) (source' : String) :
    program (source ++ "\n" ++ source') =
      ((program source').map (a ++ ·)).mapError (·.below (source.toList.count '\n' + 1)) := by
  obtain ⟨ts, hts, hparse⟩ := program_eq_ok_iff.mp h
  have htokens := tokens_join hts (parse_eq_ok_iff.mp hparse).1 source'
  generalize source.toList.count '\n' + 1 = rows at htokens ⊢
  cases hus : tokens source' with
  | error e =>
      rw [hus] at htokens
      rw [program_of_lexError htokens, program_of_lexError hus]
      rfl
  | ok us =>
      rw [hus] at htokens
      rw [program_of_tokens htokens, program_of_tokens hus, parse_append hparse, parse_below]
      cases parse us <;> rfl

/-- **Sources may be joined.** After a source with a program, and a line feed, any source has to say what
    it says by itself. If it has a program, that follows the program of the first, and the graphs of the
    two are the graphs of each, under every layout. If it has an error, of whatever kind, the error is
    the same but as many rows further down as the first source and the line feed have lines. -/
theorem program_concat (source source' : String) (a : List Statement) (h : program source = .ok a) :
    (∀ b, program source' = .ok b →
      program (source ++ "\n" ++ source') = .ok (a ++ b) ∧
      ∀ layout, ∃ text text', compile layout source = .ok text ∧ compile layout source' = .ok text' ∧
        compile layout (source ++ "\n" ++ source') = .ok (text ++ text')) ∧
    (∀ e, program source' = .error e →
      program (source ++ "\n" ++ source') = .error (e.below (source.toList.count '\n' + 1))) := by
  refine ⟨fun b h' => ?_, fun e h' => ?_⟩
  · have hjoin : program (source ++ "\n" ++ source') = .ok (a ++ b) := by
      rw [program_join h, h']
      rfl
    refine ⟨hjoin, fun layout => ⟨dot layout a, dot layout b, ?_, ?_, ?_⟩⟩
    · rw [compile, h]
      rfl
    · rw [compile, h']
      rfl
    · rw [compile, hjoin, ← dot_append]
      rfl
  · rw [program_join h, h']
    rfl

/-- Two lines before a source that ends too early: its error is two rows further down. -/
theorem program_concat_unfinished :
    let source := "ACCEPT -> [a] ;\nEND"
    let source' := "\nSTART -> b"
    let e : SyntaxError := ⟨.expected .startEnd, none, ⟨2, 11⟩⟩
    program source = .ok [.accept ["a"], .endMark] ∧ program source' = .error (.syntaxError e) ∧
      program (source ++ "\n" ++ source') = .error (.syntaxError { e with position := ⟨4, 11⟩ }) := by
  intro source source' e
  have h : program source = .ok [.accept ["a"], .endMark] := by decide +kernel
  have h' : program source' = .error (.syntaxError e) := by decide +kernel
  have hrows : source.toList.count '\n' + 1 = 2 := by decide
  have hjoin := (program_concat source source' _ h).2 _ h'
  rw [hrows] at hjoin
  exact ⟨h, h', hjoin⟩

end StateDiagram

import StateDiagram.Proofs.FirstError
import StateDiagram.Proofs.Surroundings

/-!
# `Proofs.NextKinds` — a message names what could come next

The message of a syntax error names one thing, or only says that a token or the end is unexpected. In
both cases it tells all that could stand in that place. Where something is expected, this is what the
message names, and in a list its end too. Where a statement or the end of its block is wanted, it is what
starts a statement, the brace that closes the block, and in a state's block the label of a transition.

That a category could come next is told by the grammar: the categories before it, and it, can be
completed to a program. What is before it is told by its categories too.

## Contents

* `expectedWords`, `Names` — what the word after `Expected` names;
* `NextInStatement`, `NextBetween`, `TellsNext` — what a message tells about the place where it shows;
* `ParseState.Accepts`, `exists_step_iff` — the categories that the machine can take;
* `viable_concat_iff` — are those that can come next;
* `accepts_between_iff`, `accepts_inStatement_iff` — and those that the message tells;
* `parse_error_tells_next` — every message does so.
-/

namespace StateDiagram

variable {s : ParseState} {t : Token} {ts : List Token} {k : Kind} {ks : List Kind}

/-! ## What a message tells -/

/-- A message begins with a text. -/
def StartsWith (message start : String) : Prop :=
  start.toList <+: message.toList

instance (message start : String) : Decidable (StartsWith message start) :=
  inferInstanceAs (Decidable (_ <+: _))

/-- The categories that each word after `Expected` names. -/
def expectedWords : List (String × List Kind) :=
  [("->", [.arrow]), (";", [.semicolon]), ("\x7b", [.leftBrace]), ("[", [.leftBracket]),
    ("identifier", [.identifier]), ("state", [.state]), (", or ]", [.comma, .rightBracket])]

/-- **A message names a category** by the word after `Expected`. -/
def Names (message : String) (k : Kind) : Prop :=
  ∃ entry ∈ expectedWords, StartsWith message ("Expected " ++ entry.1 ++ " ") ∧ k ∈ entry.2

/-- The message says that a token, or the end, is not expected. -/
def IsUnexpected (message : String) : Prop :=
  StartsWith message "Unexpected token " ∨ message = "Unexpected end of input"

/-- The categories that start a statement in any block. -/
def starters : List Kind := [.beginMark, .endMark, .machine, .stateDef, .start, .accept]

/-- **What can come next within a statement**: what the message names. The state that a list wants is
    not needed: the list may end there, and that of a transition may lead back. -/
def NextInStatement (message : String) (ks : List Kind) (k : Kind) : Prop :=
  Names message k ∨ message = "Expected state inside []" ∧
    (k = .self ∧ WithinTransition ks ∨ k = .rightBracket)

/-- **What can come next between statements**: what starts one, what ends the block that is open, and
    in a state's block the label of a transition. -/
def NextBetween (ks : List Kind) (k : Kind) : Prop :=
  k ∈ starters ∨ k = .rightBrace ∧ WithinBlock [.leftBrace] ks ∨
    k = .identifier ∧ WithinBlock stateHead ks

/-- **A message tells what can come next** after given categories: exactly that can be completed to a
    program. -/
structure TellsNext (message : String) (ks : List Kind) : Prop where
  wording : StartsWith message "Expected" ∨ IsUnexpected message
  expected : StartsWith message "Expected" →
    ∀ k, Viable (ks ++ [k]) ↔ NextInStatement message ks k
  unexpected : IsUnexpected message → ∀ k, Viable (ks ++ [k]) ↔ NextBetween ks k

/-- An error shows at the first of the tokens `rest`, which continues no program, or at the end if there
    are none. -/
def ShowsAt (e : SyntaxError) (before : List Token) : List Token → Prop
  | [] => e.found = none
  | t :: _ => e.found = some t.value ∧ e.position = t.position ∧
      ¬ Viable ((before ++ [t]).map Token.kind)

/-! ## What the machine can take -/

/-- The categories of the tokens that the machine can take. -/
def ParseState.Accepts (s : ParseState) (k : Kind) : Prop :=
  match s.point with
  | .statement => k ∈ starters ∨ k = .rightBrace ∧ s.blocks ≠ [] ∨
      k = .identifier ∧ inStateBlock s.blocks = true
  | .machineName | .stateName => k = .identifier
  | .machineBrace _ | .stateBrace _ => k = .leftBrace
  | .stateArrow _ | .startArrow | .listArrow _ => k = .arrow
  | .startState => k = .state
  | .listBracket _ => k = .leftBracket
  | .listState owner _ => owner.IsMember k ∨ k = .rightBracket
  | .listSeparator .. => k = .comma ∨ k = .rightBracket
  | .semicolon _ => k = .semicolon

/-- A token that moves the point is one that the machine can take there. -/
theorem Moves.accepts {p : Point} (h : Moves (inStateBlock s.blocks) s.point t p) :
    s.Accepts t.kind := by
  obtain ⟨blocks, body, point⟩ := s
  cases h with
  | machineWord hk | stateWord hk | startWord hk | acceptWord hk =>
      rw [hk]
      exact .inl (by decide)
  | label hin hk => exact .inr (.inr ⟨hk, hin⟩)
  | member hm => exact .inl hm
  | closeOpen hk | close hk => exact .inr hk
  | comma hk => exact .inl hk
  | _ hk => exact hk

/-- The machine steps by tokens that it can take only. -/
theorem ParseStep.accepts {u : ParseState} (h : ParseStep s t u) : s.Accepts t.kind := by
  obtain ⟨blocks, body, point⟩ := s
  cases h with
  | move hm => exact hm.accepts
  | beginMark hp hk | endMark hp hk =>
      obtain rfl : point = .statement := hp
      rw [hk]
      exact .inl (by decide)
  | finish hp hk =>
      obtain rfl := hp
      exact hk
  | openBlock hp hk =>
      cases hp with
      | machine => exact hk
      | state => exact hk
  | closeBlock hb hp hk =>
      obtain rfl : point = .statement := hp
      exact .inr (.inl ⟨hk, by rw [hb]; exact List.cons_ne_nil _ _⟩)

/-- Between statements, a token that the machine can take leads on. -/
theorem exists_step_of_between (hp : s.point = .statement) (h : s.Accepts t.kind) :
    ∃ u, ParseStep s t u := by
  obtain ⟨blocks, body, point⟩ := s
  obtain rfl : point = .statement := hp
  rcases h with hk | ⟨hk, hne⟩ | ⟨hk, hin⟩
  · simp only [starters, List.mem_cons, List.not_mem_nil, or_false] at hk
    rcases hk with hk | hk | hk | hk | hk | hk
    · exact ⟨_, .beginMark rfl hk⟩
    · exact ⟨_, .endMark rfl hk⟩
    · exact ⟨_, .move (.machineWord hk)⟩
    · exact ⟨_, .move (.stateWord hk)⟩
    · exact ⟨_, .move (.startWord hk)⟩
    · exact ⟨_, .move (.acceptWord hk)⟩
  · obtain ⟨b, bs, rfl⟩ := List.exists_cons_of_ne_nil hne
    exact ⟨_, .closeBlock rfl rfl hk⟩
  · exact ⟨_, .move (.label hin hk)⟩

/-- **The machine can take a token** exactly if it can take its category. -/
theorem exists_step_iff : (∃ u, ParseStep s t u) ↔ s.Accepts t.kind := by
  constructor
  · rintro ⟨u, hu⟩
    exact hu.accepts
  · intro h
    obtain ⟨blocks, body, point⟩ := s
    cases point with
    | statement => exact exists_step_of_between rfl h
    | machineName => exact ⟨_, .move (.machineName h)⟩
    | machineBrace => exact ⟨_, .openBlock .machine h⟩
    | stateName => exact ⟨_, .move (.stateName h)⟩
    | stateArrow => exact ⟨_, .move (.stateArrow h)⟩
    | stateBrace => exact ⟨_, .openBlock .state h⟩
    | startArrow => exact ⟨_, .move (.startArrow h)⟩
    | startState => exact ⟨_, .move (.startState h)⟩
    | listArrow => exact ⟨_, .move (.listArrow h)⟩
    | listBracket => exact ⟨_, .move (.listBracket h)⟩
    | listState =>
        rcases h with hm | hk
        · exact ⟨_, .move (.member hm)⟩
        · exact ⟨_, .move (.closeOpen hk)⟩
    | listSeparator =>
        rcases h with hk | hk
        · exact ⟨_, .move (.comma hk)⟩
        · exact ⟨_, .move (.close hk)⟩
    | semicolon => exact ⟨_, .finish rfl h⟩

/-- **What can come next is what the machine can take.** No state is a dead end, so one token more can
    be completed as soon as the machine takes it. -/
theorem viable_concat_iff (hrun : Runs .initial ts s) :
    Viable (ts.map Token.kind ++ [k]) ↔ s.Accepts k := by
  have hkinds : ts.map Token.kind ++ [k] = (ts ++ [Token.blank k]).map Token.kind := by
    rw [List.map_append]
    rfl
  have hsteps : (∃ u, ParseStep s (.blank k) u) ↔ s.Accepts k := exists_step_iff
  rw [hkinds, ← hsteps]
  constructor
  · intro h
    by_cases hstep : ∃ u, ParseStep s (.blank k) u
    · exact hstep
    · exact absurd h (not_viable_of_no_step hrun (not_exists.mp hstep))
  · rintro ⟨u, hu⟩
    exact (hrun.snoc hu).viable

/-! ## What the messages tell -/

/-- The categories that the message for what was expected names. -/
def Expectation.kinds : Expectation → List Kind
  | machineName | stateName => [.identifier]
  | machineBrace | stateBrace => [.leftBrace]
  | stateArrow | startArrow | acceptArrow | transitionArrow => [.arrow]
  | startState | listState => [.state]
  | acceptList | transitionList => [.leftBracket]
  | listSeparator => [.comma, .rightBracket]
  | machineEnd | stateEnd | startEnd | acceptEnd | transitionEnd => [.semicolon]

/-- One entry of the table fits a message: that of what was expected. -/
theorem Expectation.filter_expectedWords (what : Expectation) :
    (expectedWords.filter fun entry =>
      decide (StartsWith what.message ("Expected " ++ entry.1 ++ " "))).map Prod.snd =
        [what.kinds] := by
  cases what <;> rfl

theorem Expectation.names_iff {what : Expectation} : Names what.message k ↔ k ∈ what.kinds := by
  have hone (kinds : List Kind) : (∃ entry ∈ expectedWords,
      StartsWith what.message ("Expected " ++ entry.1 ++ " ") ∧ entry.2 = kinds) ↔
        kinds = what.kinds := by
    rw [← List.mem_singleton, ← what.filter_expectedWords]
    simp [and_assoc]
  constructor
  · rintro ⟨entry, hentry, hstart, hk⟩
    exact (hone entry.2).mp ⟨entry, hentry, hstart, rfl⟩ ▸ hk
  · intro hk
    obtain ⟨entry, hentry, hstart, hkinds⟩ := (hone what.kinds).mpr rfl
    exact ⟨entry, hentry, hstart, hkinds ▸ hk⟩

/-- What names a category says that it was expected. -/
theorem Names.startsWith {message : String} (h : Names message k) :
    StartsWith message "Expected" := by
  obtain ⟨entry, -, hstart, -⟩ := h
  have hspace : "Expected".toList <+: "Expected ".toList := by decide
  rw [StartsWith, String.toList_append, String.toList_append, List.append_assoc] at hstart
  exact hspace.trans ((List.prefix_append _ _).trans hstart)

theorem Expectation.startsWith (what : Expectation) : StartsWith what.message "Expected" := by
  have hkinds : ∃ k, k ∈ what.kinds := by
    cases what <;> exact ⟨_, List.mem_cons_self⟩
  obtain ⟨k, hk⟩ := hkinds
  exact (Expectation.names_iff.mpr hk).startsWith

theorem Expectation.message_eq_iff {what : Expectation} :
    what.message = "Expected state inside []" ↔ what = .listState := by
  cases what <;> decide

/-- What says that something was expected does not say that something was not. -/
theorem not_isUnexpected {message : String} (h : StartsWith message "Expected") :
    ¬ IsUnexpected message := by
  rintro (h' | rfl)
  · rcases List.prefix_or_prefix_of_prefix h h' with hprefix | hprefix
    · exact absurd hprefix (by decide)
    · exact absurd hprefix (by decide)
  · exact absurd h (by decide)

/-- Something is expected within a statement, and only there. -/
theorem Point.fault_cases (p : Point) (next : Option Token) :
    (p = .statement ∧ IsUnexpected (p.fault next).message) ∨
      ∃ what, p.fault next = .expected what := by
  cases p with
  | statement =>
      refine .inl ⟨rfl, ?_⟩
      cases next with
      | none => exact .inr rfl
      | some t =>
          refine .inl ⟨t.value.toList, ?_⟩
          exact String.toList_append.symm
  | listArrow owner | listBracket owner => cases owner <;> exact .inr ⟨_, rfl⟩
  | _ => exact .inr ⟨_, rfl⟩

/-! ## The machine takes what the messages tell -/

/-- **Between statements**: the block that is open shows in what has been read. -/
theorem accepts_between_iff (hrun : Runs .initial ts s) (hp : s.point = .statement) :
    s.Accepts k ↔ NextBetween (ts.map Token.kind) k := by
  rw [NextBetween, withinBlock_brace_iff hrun hp, withinBlock_state_iff hrun hp,
    ParseState.Accepts, hp]

/-- **Within a statement**: the message names what the point of the grammar wants. -/
theorem accepts_inStatement_iff {next : Option Token} {what : Expectation}
    (hrun : Runs .initial ts s) (h : s.point.fault next = .expected what) :
    s.Accepts k ↔ NextInStatement what.message (ts.map Token.kind) k := by
  rw [NextInStatement, Expectation.names_iff, Expectation.message_eq_iff]
  obtain ⟨blocks, body, point⟩ := s
  cases point with
  | statement => cases next <;> cases h
  | listState owner states =>
      cases h
      rw [withinTransition_iff hrun rfl]
      cases owner with
      | accept => simp [ParseState.Accepts, Expectation.kinds, ListOwner.IsMember, IsState]
      | transition label =>
          simp [ParseState.Accepts, Expectation.kinds, ListOwner.IsMember, IsTarget, or_assoc]
  | listArrow owner | listBracket owner =>
      cases owner <;> cases h <;> simp [ParseState.Accepts, Expectation.kinds]
  | semicolon done =>
      cases done <;> cases h <;>
        simp [ParseState.Accepts, Expectation.kinds, Statement.endExpectation]
  | _ =>
      cases h
      simp [ParseState.Accepts, Expectation.kinds]

/-- **What is wrong at a state tells what could come next there.** -/
theorem Runs.tellsNext (hrun : Runs .initial ts s) (next : Option Token) :
    TellsNext (s.point.fault next).message (ts.map Token.kind) := by
  rcases s.point.fault_cases next with ⟨hp, hmessage⟩ | ⟨what, hfault⟩
  · refine ⟨.inr hmessage, fun h => absurd hmessage (not_isUnexpected h), fun _ k => ?_⟩
    exact (viable_concat_iff hrun).trans (accepts_between_iff hrun hp)
  · have hstart := what.startsWith
    rw [hfault]
    refine ⟨.inl hstart, fun _ k => ?_, fun h => absurd h (not_isUnexpected hstart)⟩
    exact (viable_concat_iff hrun).trans (accepts_inStatement_iff hrun hfault)

/-- **Messages name exactly what could come next.** A parse that fails for another reason than nesting
    shows its error at one of the tokens or at their end. There, the message tells what could stand
    after the tokens before: what the word after `Expected` names, and in a list its closing bracket
    and, if it is a transition's, `SELF`; or, where something is unexpected, what starts a statement,
    the brace of an open block and, if the innermost is a state's, the label of a transition. -/
theorem parse_error_tells_next (ts : List Token) (e : SyntaxError) (h : parse ts = .error e)
    (hlimit : e.fault ≠ .tooDeep 256) :
    ∃ before rest, ts = before ++ rest ∧ ShowsAt e before rest ∧
      TellsNext e.fault.message (before.map Token.kind) := by
  rcases parse_eq_error_cases h with ⟨us, t, vs, u, rfl, hrun, hstep, -⟩ | ⟨s, hrun, -, rfl⟩
  · obtain ⟨hnone, rfl⟩ := no_step_of_step_eq_error hstep hlimit
    exact ⟨us, t :: vs, rfl, ⟨rfl, rfl, not_viable_of_no_step hrun hnone⟩, hrun.tellsNext (some t)⟩
  · exact ⟨ts, [], (List.append_nil ts).symm, rfl, hrun.tellsNext none⟩

/-- A list that goes on with a semicolon, in a block of a state: a state could come there, the list
    could end, and it could lead back. -/
theorem parse_error_tells_next_in_list :
    let ts : List Token := [⟨.stateDef, "STATE", ⟨1, 1⟩⟩, ⟨.identifier, "s", ⟨1, 7⟩⟩,
      ⟨.arrow, "->", ⟨1, 9⟩⟩, ⟨.leftBrace, "\x7b", ⟨1, 12⟩⟩, ⟨.identifier, "x", ⟨1, 14⟩⟩,
      ⟨.arrow, "->", ⟨1, 16⟩⟩, ⟨.leftBracket, "[", ⟨1, 19⟩⟩, ⟨.semicolon, ";", ⟨1, 20⟩⟩]
    let e : SyntaxError := ⟨.expected .listState, some ";", ⟨1, 20⟩⟩
    parse ts = .error e ∧ e.fault ≠ .tooDeep 256 ∧
    ∃ before rest, ts = before ++ rest ∧ ShowsAt e before rest ∧
      TellsNext e.fault.message (before.map Token.kind) :=
  ⟨rfl, by decide, parse_error_tells_next _ _ rfl (by decide)⟩

end StateDiagram

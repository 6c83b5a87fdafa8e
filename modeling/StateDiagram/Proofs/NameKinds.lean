import StateDiagram.Proofs.Nesting
import StateDiagram.Proofs.Spelling

/-!
# `Proofs.NameKinds` — states and identifiers told apart twice

A name is a state or an identifier by what stands before it, and lexing decides which. The grammar
asks for one or the other in each place where it has a name. On the tokens of a source the question
is never open: wherever the parser can stand, the brackets and the category before tell lexing the same
as the grammar tells the parser. So a parser that takes either for the other reads every source alike,
down to its errors.

## Contents

* `Context.Suits` — what lexing knows where the parser stands;
* `ParseStep.suits` — a step keeps it;
* `placed_of_tokens` — the tokens of a source have the categories of their places;
* `anyName_admits`, `anyName_admits_identifier`, `anyName_admits_state` — a test is the same for both
  parsers if it is for no name, or if lexing knows which name it is for;
* `step_eq_anyName_step`, `run_eq_anyName_run` — so is a step, and a run;
* `parse_eq_anyName_parse` — so is the reading of a source.
-/

namespace StateDiagram

variable {ctx : Context} {s s' : ParseState} {t : Token} {ts : List Token}

/-! ## What lexing knows where the parser stands -/

/-- **Lexing and parsing agree on a place.** Where the grammar has a declaration no state is wanted;
    where it has a state, that follows from the arrow before it or from an open bracket; and brackets are
    open between those of a list and nowhere else. -/
def Context.Suits (ctx : Context) : Point → Prop
  | .statement | .machineName | .stateName => ctx.wantsState = false
  | .startState => ctx.inBrackets = false ∧ ctx.previous = some .arrow
  | .listState .. | .listSeparator .. => ctx.inBrackets = true
  | .machineBrace _ | .stateArrow _ | .stateBrace _ | .startArrow | .listArrow _ | .listBracket _
  | .semicolon _ => ctx.inBrackets = false

/-- After a mark, the keyword of a block, an opening brace or a semicolon, names are declared. -/
theorem Context.wantsState_read {k : Kind} (hctx : ctx.inBrackets = false)
    (hk : k = .beginMark ∨ k = .endMark ∨ k = .leftBrace ∨ k = .semicolon ∨ k = .machine ∨
      k = .stateDef) : (ctx.read k).wantsState = false := by
  rcases hk with rfl | rfl | rfl | rfl | rfl | rfl <;>
    simp [Context.read, Context.wantsState, hctx]

/-- A token within a statement keeps the agreement. -/
theorem Moves.suits {inState : Bool} {p q : Point} (h : Moves inState p t q) (hp : ctx.Suits p) :
    (ctx.read t.kind).Suits q := by
  -- The move fixes the category of its token, but for the members of a list.
  cases h with
  | machineWord hk =>
      rw [hk]
      exact Context.wantsState_read (Context.inBrackets_of_wantsState hp) (by simp)
  | stateWord hk =>
      rw [hk]
      exact Context.wantsState_read (Context.inBrackets_of_wantsState hp) (by simp)
  | startWord hk | acceptWord hk | label _ hk | machineName hk | stateName hk =>
      have hopen : ctx.inBrackets = false := Context.inBrackets_of_wantsState hp
      rw [hk]
      exact hopen
  | stateArrow hk | listArrow hk =>
      rw [hk]
      exact hp
  | startArrow hk =>
      rw [hk]
      exact ⟨hp, rfl⟩
  | startState hk =>
      rw [hk]
      exact hp.1
  | listBracket hk | closeOpen hk | close hk =>
      rw [hk]
      rfl
  | comma hk =>
      rw [hk]
      exact hp
  | @member _ owner _ hm =>
      have hno : t.kind ≠ .leftBracket ∧ t.kind ≠ .rightBracket := by
        cases owner with
        | accept =>
            rw [show t.kind = .state from hm]
            decide
        | transition _ => rcases hm with hk | hk <;> rw [hk] <;> decide
      exact (Context.inBrackets_read hno.1 hno.2).trans hp

/-- **A step keeps the agreement** of lexing and parsing. -/
theorem ParseStep.suits (h : ParseStep s t s') (hs : ctx.Suits s.point) :
    (ctx.read t.kind).Suits s'.point := by
  cases h with
  | move hm => exact hm.suits hs
  | beginMark hp hk =>
      rw [hp] at hs
      rw [hk]
      exact Context.wantsState_read (Context.inBrackets_of_wantsState hs) (by simp)
  | endMark hp hk =>
      rw [hp] at hs
      rw [hk]
      exact Context.wantsState_read (Context.inBrackets_of_wantsState hs) (by simp)
  | finish hp hk =>
      rw [hp] at hs
      rw [hk]
      exact Context.wantsState_read hs (by simp)
  | openBlock hp hk =>
      have hopen : ctx.inBrackets = false := by
        cases hpoint : s.point <;> rw [hpoint] at hp hs <;> cases hp <;> exact hs
      rw [hk]
      exact Context.wantsState_read hopen (by simp)
  | closeBlock _ hp hk =>
      rw [hp] at hs
      have hopen : ctx.inBrackets = false := Context.inBrackets_of_wantsState hs
      rw [hk]
      exact hopen

/-! ## The two parsers -/

/-- The tokens of a source have the categories of their places. -/
theorem placed_of_tokens {source : String} (h : tokens source = .ok ts) : Placed .empty ts :=
  (classified_iff_placed (isSpelled_of_mem_tokens h)).mp (classified_of_tokensFrom h)

/-- A test for a category that is no name is the same for both parsers. -/
theorem anyName_admits (wanted found : Kind) (h : wanted.isName = false) :
    Rules.anyName.admits wanted found = Rules.standard.admits wanted found := by
  show (wanted == found || wanted.isName && found.isName) = (wanted == found)
  rw [h, Bool.false_and, Bool.or_false]

/-- Where no state is wanted, a test for an identifier is the same for both. -/
theorem anyName_admits_identifier {found : Kind} (hctx : ctx.wantsState = false)
    (h : ctx.allows found) :
    Rules.anyName.admits .identifier found = Rules.standard.admits .identifier found := by
  cases found with
  | state =>
      rw [Context.allows, hctx] at h
      cases h
  | _ => rfl

/-- Where a state is wanted, a test for a state is the same for both. -/
theorem anyName_admits_state {found : Kind} (hctx : ctx.wantsState = true) (h : ctx.allows found) :
    Rules.anyName.admits .state found = Rules.standard.admits .state found := by
  cases found with
  | identifier =>
      rw [Context.allows, hctx] at h
      cases h
  | _ => rfl

theorem anyName_wants {next : ParseState} {kind : Kind}
    (h : Rules.anyName.admits kind t.kind = Rules.standard.admits kind t.kind) :
    Rules.step?.wants Rules.standard t kind next = Rules.step?.wants Rules.anyName t kind next := by
  unfold Rules.step?.wants
  rw [h]

theorem anyName_admitsMember {owner : ListOwner} (hctx : ctx.wantsState = true)
    (h : ctx.allows t.kind) :
    Rules.anyName.admitsMember t.kind owner = Rules.standard.admitsMember t.kind owner := by
  unfold Rules.admitsMember
  rw [anyName_admits_state hctx h, anyName_admits .self _ rfl]

/-- **A token of its place is read alike** by both parsers, where lexing and parsing agree. -/
theorem step?_eq_anyName_step? (hs : ctx.Suits s.point) (h : ctx.allows t.kind) :
    Rules.standard.step? s t = Rules.anyName.step? s t := by
  unfold Rules.step?
  -- Only where the grammar has a name do the tests differ, and there the agreement decides.
  cases hp : s.point with
  | statement =>
      rw [hp] at hs
      unfold Rules.between?
      rw [anyName_admits .rightBrace _ rfl, anyName_admits_identifier hs h]
  | machineName | stateName =>
      rw [hp] at hs
      exact anyName_wants (anyName_admits_identifier hs h)
  | startState =>
      rw [hp] at hs
      have hwants : ctx.wantsState = true := by simp [Context.wantsState, hs.2]
      exact anyName_wants (anyName_admits_state hwants h)
  | listState owner states =>
      rw [hp] at hs
      have hopen : ctx.inBrackets = true := hs
      have hwants : ctx.wantsState = true := by simp [Context.wantsState, hopen]
      dsimp only
      rw [anyName_admits .rightBracket _ rfl, anyName_admitsMember hwants h]
  | listSeparator owner states =>
      dsimp only
      rw [anyName_admits .comma _ rfl, anyName_admits .rightBracket _ rfl]
  | machineBrace _ | stateArrow _ | stateBrace _ | startArrow | listArrow _ | listBracket _
  | semicolon _ => exact anyName_wants (anyName_admits _ _ rfl)

/-- The same with the nesting limit, which the two parsers share. -/
theorem step_eq_anyName_step (hs : ctx.Suits s.point) (h : ctx.allows t.kind) :
    Rules.standard.step s t = Rules.anyName.step s t := by
  unfold Rules.step
  rw [step?_eq_anyName_step? hs h]
  rfl

/-- **Tokens of their places are read alike**, one after the other. -/
theorem run_eq_anyName_run (hs : ctx.Suits s.point) (h : Placed ctx ts) :
    Rules.standard.run s ts = Rules.anyName.run s ts := by
  induction ts generalizing ctx s with
  | nil => rfl
  | cons t ts ih =>
      rw [Rules.run_cons, Rules.run_cons, ← step_eq_anyName_step hs h.1]
      cases hstep : Rules.standard.step s t with
      | error e => rfl
      | ok u => exact ih ((standard_step_eq_ok_iff.mp hstep).1.suits hs) h.2

/-- **Where a name stands decides what it is, and the grammar never disagrees.** The tokens of a
    source give the same program or the same error — fault, text and place — when states and
    identifiers are told apart as when each will do for the other. -/
theorem parse_eq_anyName_parse (source : String) (ts : List Token) (h : tokens source = .ok ts) :
    parse ts = Rules.anyName.parse ts := by
  have hsuits : Context.empty.Suits ParseState.initial.point := rfl
  have hrun : Rules.standard.run .initial ts = Rules.anyName.run .initial ts :=
    run_eq_anyName_run hsuits (placed_of_tokens h)
  unfold parse Rules.parse
  rw [hrun]

/-- A state in the place of a list: it is read as a state, and refused by both parsers alike. -/
theorem parse_eq_anyName_parse_of_missing_bracket :
    let source := "STATE a -> \x7b go -> b ;"
    let ts : List Token := [⟨.stateDef, "STATE", ⟨1, 1⟩⟩, ⟨.identifier, "a", ⟨1, 7⟩⟩,
      ⟨.arrow, "->", ⟨1, 9⟩⟩, ⟨.leftBrace, "\x7b", ⟨1, 12⟩⟩, ⟨.identifier, "go", ⟨1, 14⟩⟩,
      ⟨.arrow, "->", ⟨1, 17⟩⟩, ⟨.state, "b", ⟨1, 20⟩⟩, ⟨.semicolon, ";", ⟨1, 22⟩⟩]
    tokens source = .ok ts ∧ parse ts = Rules.anyName.parse ts ∧
      Rules.anyName.parse ts = .error ⟨.expected .transitionList, some "b", ⟨1, 20⟩⟩ := by
  intro source ts
  have htokens : tokens source = .ok ts := by decide +kernel
  exact ⟨htokens, parse_eq_anyName_parse source ts htokens, rfl⟩

/-- On tokens that no source has, the two parsers can differ: here a machine's name is a state. -/
example :
    let ts : List Token := [⟨.machine, "def", ⟨1, 1⟩⟩, ⟨.state, "m", ⟨1, 5⟩⟩]
    parse ts ≠ Rules.anyName.parse ts := by decide

end StateDiagram

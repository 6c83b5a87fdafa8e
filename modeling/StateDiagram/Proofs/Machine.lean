import StateDiagram.Proofs.Grammar
import StateDiagram.Statement.Parser

/-!
# `Proofs.Machine` — the steps of the reading machine

The parser is a function that takes a state and a token. Here it is a relation, with one rule for
each thing that a token can do, so that what follows goes by cases on the rules and never opens the
function. The nesting limit is left out: it only ever refuses a step that the rules allow.

## Contents

* `inStateBlock`, `ListOwner.IsMember` — where transitions may stand, and what a list may name;
* `Moves`, `ParseStep` — what one token does; `step?_eq_some_iff` — it does nothing else;
* `Runs` — what a list of tokens does; `run_eq_ok_iff` — it is a run of the machine;
* `Runs.append`, `Runs.split` — runs in two pieces; `runs_cons_iff`, `runs_singleton_iff` — from their
  first token.
-/

namespace StateDiagram

/-! ## What one token does -/

/-- Whether transitions may stand in the innermost open block. -/
def inStateBlock : List Block → Bool
  | [] => false
  | b :: _ => b.head.allowsTransitions

/-- The categories of the names in a list. -/
def ListOwner.IsMember : ListOwner → Kind → Prop
  | accept => IsState
  | transition _ => IsTarget

/-- A token within a statement: only the point of the grammar changes. -/
inductive Moves (inState : Bool) : Point → Token → Point → Prop where
  | machineWord {t : Token} : t.kind = .machine → Moves inState .statement t .machineName
  | stateWord {t : Token} : t.kind = .stateDef → Moves inState .statement t .stateName
  | startWord {t : Token} : t.kind = .start → Moves inState .statement t .startArrow
  | acceptWord {t : Token} : t.kind = .accept → Moves inState .statement t (.listArrow .accept)
  | label {t : Token} : inState = true → t.kind = .identifier →
      Moves inState .statement t (.listArrow (.transition t.value))
  | machineName {t : Token} : t.kind = .identifier →
      Moves inState .machineName t (.machineBrace t.value)
  | stateName {t : Token} : t.kind = .identifier → Moves inState .stateName t (.stateArrow t.value)
  | stateArrow {t : Token} {name : String} : t.kind = .arrow →
      Moves inState (.stateArrow name) t (.stateBrace name)
  | startArrow {t : Token} : t.kind = .arrow → Moves inState .startArrow t .startState
  | startState {t : Token} : t.kind = .state →
      Moves inState .startState t (.semicolon (.start t.value))
  | listArrow {t : Token} {owner : ListOwner} : t.kind = .arrow →
      Moves inState (.listArrow owner) t (.listBracket owner)
  | listBracket {t : Token} {owner : ListOwner} : t.kind = .leftBracket →
      Moves inState (.listBracket owner) t (.listState owner [])
  | member {t : Token} {owner : ListOwner} {states : List String} : owner.IsMember t.kind →
      Moves inState (.listState owner states) t (.listSeparator owner (t.value :: states))
  | comma {t : Token} {owner : ListOwner} {states : List String} : t.kind = .comma →
      Moves inState (.listSeparator owner states) t (.listState owner states)
  | closeOpen {t : Token} {owner : ListOwner} {states : List String} : t.kind = .rightBracket →
      Moves inState (.listState owner states) t (.semicolon (owner.statement states.reverse))
  | close {t : Token} {owner : ListOwner} {states : List String} : t.kind = .rightBracket →
      Moves inState (.listSeparator owner states) t (.semicolon (owner.statement states.reverse))

/-- The points before the opening brace of a block. -/
inductive BeforeBrace : Point → BlockHead → Prop where
  | machine {name : String} : BeforeBrace (.machineBrace name) (.machine name)
  | state {name : String} : BeforeBrace (.stateBrace name) (.state name)

/-- **Everything that one token can do** to the machine, the nesting limit aside. -/
inductive ParseStep : ParseState → Token → ParseState → Prop where
  | move {s : ParseState} {t : Token} {p : Point} :
      Moves (inStateBlock s.blocks) s.point t p → ParseStep s t (s.goTo p)
  | beginMark {s : ParseState} {t : Token} :
      s.point = .statement → t.kind = .beginMark → ParseStep s t (s.push .beginMark)
  | endMark {s : ParseState} {t : Token} :
      s.point = .statement → t.kind = .endMark → ParseStep s t (s.push .endMark)
  | finish {s : ParseState} {t : Token} {done : Statement} :
      s.point = .semicolon done → t.kind = .semicolon → ParseStep s t (s.push done)
  | openBlock {s : ParseState} {t : Token} {head : BlockHead} :
      BeforeBrace s.point head → t.kind = .leftBrace → ParseStep s t (s.openBlock head)
  | closeBlock {s : ParseState} {t : Token} {b : Block} {bs : List Block} :
      s.blocks = b :: bs → s.point = .statement → t.kind = .rightBrace →
        ParseStep s t ⟨bs, b.before, .semicolon (b.head.statement s.body.reverse)⟩

/-- Without a limit too, each category will do for itself only. -/
theorem unlimited_admits {wanted found : Kind} :
    Rules.unlimited.admits wanted found = true ↔ found = wanted := by
  show (wanted == found) = true ↔ found = wanted
  rw [beq_iff_eq, eq_comm]

theorem wants_eq_some_iff {t : Token} {kind : Kind} {next s : ParseState} :
    Rules.step?.wants Rules.unlimited t kind next = some s ↔ t.kind = kind ∧ s = next := by
  unfold Rules.step?.wants
  by_cases h : t.kind = kind
  · rw [if_pos (unlimited_admits.mpr h), Option.some.injEq]
    exact ⟨fun hs => ⟨h, hs.symm⟩, fun hs => hs.2.symm⟩
  · rw [if_neg (fun ha => h (unlimited_admits.mp ha))]
    exact ⟨fun hs => absurd hs (by simp), fun hs => absurd hs.1 h⟩

theorem admitsMember_iff {owner : ListOwner} {kind : Kind} :
    Rules.unlimited.admitsMember kind owner = true ↔ owner.IsMember kind := by
  cases owner with
  | accept => exact unlimited_admits
  | transition _ =>
      show (_ || _) = true ↔ _
      rw [Bool.or_eq_true, unlimited_admits, unlimited_admits]
      rfl

/-- The steps that start a statement. -/
theorem start?_eq_some {s s' : ParseState} {t : Token} (hp : s.point = .statement)
    (h : s.start? t = some s') : ParseStep s t s' := by
  unfold ParseState.start? at h
  split at h
  next hk => exact Option.some.inj h ▸ .beginMark hp hk
  next hk => exact Option.some.inj h ▸ .endMark hp hk
  next hk => exact Option.some.inj h ▸ .move (hp ▸ .machineWord hk)
  next hk => exact Option.some.inj h ▸ .move (hp ▸ .stateWord hk)
  next hk => exact Option.some.inj h ▸ .move (hp ▸ .startWord hk)
  next hk => exact Option.some.inj h ▸ .move (hp ▸ .acceptWord hk)
  next => exact nomatch h

/-- The steps between two statements. -/
theorem between?_eq_some {s s' : ParseState} {t : Token} (hp : s.point = .statement)
    (h : Rules.unlimited.between? s t = some s') : ParseStep s t s' := by
  unfold Rules.between? at h
  split at h
  next => exact start?_eq_some hp h
  next b bs hb =>
    split at h
    next hr => exact Option.some.inj h ▸ .closeBlock hb hp (unlimited_admits.mp hr)
    next =>
      split at h
      next hl =>
        rw [Bool.and_eq_true] at hl
        have hin : inStateBlock s.blocks = true := by rw [hb]; exact hl.1
        exact Option.some.inj h ▸ .move (hp ▸ .label hin (unlimited_admits.mp hl.2))
      next => exact start?_eq_some hp h

/-- A step of the machine is one of those in `ParseStep`. -/
theorem step_of_step? {s s' : ParseState} {t : Token}
    (h : Rules.unlimited.step? s t = some s') : ParseStep s t s' := by
  unfold Rules.step? at h
  -- One case for each point, in the order in which the function tells them apart.
  split at h
  next hp => exact between?_eq_some hp h
  next hp =>
    obtain ⟨hk, rfl⟩ := wants_eq_some_iff.mp h
    exact .move (hp ▸ .machineName hk)
  next name hp =>
    obtain ⟨hk, rfl⟩ := wants_eq_some_iff.mp h
    exact .openBlock (hp ▸ .machine) hk
  next hp =>
    obtain ⟨hk, rfl⟩ := wants_eq_some_iff.mp h
    exact .move (hp ▸ .stateName hk)
  next name hp =>
    obtain ⟨hk, rfl⟩ := wants_eq_some_iff.mp h
    exact .move (hp ▸ .stateArrow hk)
  next name hp =>
    obtain ⟨hk, rfl⟩ := wants_eq_some_iff.mp h
    exact .openBlock (hp ▸ .state) hk
  next hp =>
    obtain ⟨hk, rfl⟩ := wants_eq_some_iff.mp h
    exact .move (hp ▸ .startArrow hk)
  next hp =>
    obtain ⟨hk, rfl⟩ := wants_eq_some_iff.mp h
    exact .move (hp ▸ .startState hk)
  next owner hp =>
    obtain ⟨hk, rfl⟩ := wants_eq_some_iff.mp h
    exact .move (hp ▸ .listArrow hk)
  next owner hp =>
    obtain ⟨hk, rfl⟩ := wants_eq_some_iff.mp h
    exact .move (hp ▸ .listBracket hk)
  next owner states hp =>
    split at h
    next hr => exact Option.some.inj h ▸ .move (hp ▸ .closeOpen (unlimited_admits.mp hr))
    next =>
      split at h
      next hm => exact Option.some.inj h ▸ .move (hp ▸ .member (admitsMember_iff.mp hm))
      next => exact nomatch h
  next owner states hp =>
    split at h
    next hc => exact Option.some.inj h ▸ .move (hp ▸ .comma (unlimited_admits.mp hc))
    next =>
      split at h
      next hr => exact Option.some.inj h ▸ .move (hp ▸ .close (unlimited_admits.mp hr))
      next => exact nomatch h
  next done hp =>
    obtain ⟨hk, rfl⟩ := wants_eq_some_iff.mp h
    exact .finish hp hk

/-- Where a statement may start, a token that starts one does so in any block. -/
theorem between?_of_start? {s s' : ParseState} {t : Token} (h : s.start? t = some s') :
    Rules.unlimited.between? s t = some s' := by
  have hr : Rules.unlimited.admits .rightBrace t.kind ≠ true := by
    intro hr
    rw [ParseState.start?, unlimited_admits.mp hr] at h
    exact nomatch h
  have hi : Rules.unlimited.admits .identifier t.kind ≠ true := by
    intro hi
    rw [ParseState.start?, unlimited_admits.mp hi] at h
    exact nomatch h
  unfold Rules.between?
  split
  next => exact h
  next b bs hb =>
    rw [if_neg hr, if_neg (fun hc => hi (Bool.and_eq_true _ _ ▸ hc).2)]
    exact h

/-- Each of the steps in `ParseStep` is one of the machine. -/
theorem step?_of_step {s s' : ParseState} {t : Token} (h : ParseStep s t s') :
    Rules.unlimited.step? s t = some s' := by
  -- Taken apart, so that the function computes once the point is known.
  obtain ⟨blocks, body, point⟩ := s
  cases h with
  | move hm =>
      cases hm with
      | machineWord hk => exact between?_of_start? (by rw [ParseState.start?, hk])
      | stateWord hk => exact between?_of_start? (by rw [ParseState.start?, hk])
      | startWord hk => exact between?_of_start? (by rw [ParseState.start?, hk])
      | acceptWord hk => exact between?_of_start? (by rw [ParseState.start?, hk])
      | label hin hk =>
          cases blocks with
          | nil => exact nomatch hin
          | cons b bs =>
              have hr : Rules.unlimited.admits .rightBrace t.kind ≠ true := by rw [hk]; decide
              have hl : (b.head.allowsTransitions &&
                  Rules.unlimited.admits .identifier t.kind) = true :=
                Bool.and_eq_true _ _ ▸ ⟨hin, unlimited_admits.mpr hk⟩
              exact (if_neg hr).trans (if_pos hl)
      | machineName hk => exact wants_eq_some_iff.mpr ⟨hk, rfl⟩
      | stateName hk => exact wants_eq_some_iff.mpr ⟨hk, rfl⟩
      | stateArrow hk => exact wants_eq_some_iff.mpr ⟨hk, rfl⟩
      | startArrow hk => exact wants_eq_some_iff.mpr ⟨hk, rfl⟩
      | startState hk => exact wants_eq_some_iff.mpr ⟨hk, rfl⟩
      | listArrow hk => exact wants_eq_some_iff.mpr ⟨hk, rfl⟩
      | listBracket hk => exact wants_eq_some_iff.mpr ⟨hk, rfl⟩
      | @member _ owner _ hm =>
          -- The function looks for the end of the list first; no member is one.
          have hr : Rules.unlimited.admits .rightBracket t.kind ≠ true := by
            intro hr
            rw [unlimited_admits.mp hr] at hm
            cases owner <;> simp [ListOwner.IsMember, IsState, IsTarget] at hm
          exact (if_neg hr).trans (if_pos (admitsMember_iff.mpr hm))
      | comma hk => exact if_pos (unlimited_admits.mpr hk)
      | closeOpen hk => exact if_pos (unlimited_admits.mpr hk)
      | close hk =>
          -- Here it looks for a comma first.
          have hc : Rules.unlimited.admits .comma t.kind ≠ true := by rw [hk]; decide
          exact (if_neg hc).trans (if_pos (unlimited_admits.mpr hk))
  | beginMark hp hk =>
      obtain rfl : point = .statement := hp
      exact between?_of_start? (by rw [ParseState.start?, hk])
  | endMark hp hk =>
      obtain rfl : point = .statement := hp
      exact between?_of_start? (by rw [ParseState.start?, hk])
  | @finish done hp hk =>
      obtain rfl : point = .semicolon done := hp
      exact wants_eq_some_iff.mpr ⟨hk, rfl⟩
  | openBlock hp hk =>
      cases hp with
      | machine => exact wants_eq_some_iff.mpr ⟨hk, rfl⟩
      | state => exact wants_eq_some_iff.mpr ⟨hk, rfl⟩
  | @closeBlock b bs hb hp hk =>
      obtain rfl : point = .statement := hp
      obtain rfl : blocks = b :: bs := hb
      exact if_pos (unlimited_admits.mpr hk)

/-- **The machine and the relation agree**, step by step. -/
theorem step?_eq_some_iff {s s' : ParseState} {t : Token} :
    Rules.unlimited.step? s t = some s' ↔ ParseStep s t s' :=
  ⟨step_of_step?, step?_of_step⟩

/-! ## What a list of tokens does -/

/-- Step after step: the machine is led from one state to another by a list of tokens. -/
inductive Runs : ParseState → List Token → ParseState → Prop where
  | nil {s : ParseState} : Runs s [] s
  | cons {s u s' : ParseState} {t : Token} {ts : List Token} :
      ParseStep s t u → Runs u ts s' → Runs s (t :: ts) s'

variable {s u s' : ParseState} {ts us : List Token}

/-- Runs compose. -/
theorem Runs.append (h : Runs s ts u) (h' : Runs u us s') : Runs s (ts ++ us) s' := by
  induction h with
  | nil => exact h'
  | cons hstep _ ih => exact .cons hstep (ih h')

/-- A run passes through a state at each of its tokens. -/
theorem Runs.split (h : Runs s (ts ++ us) s') : ∃ u, Runs s ts u ∧ Runs u us s' := by
  induction ts generalizing s with
  | nil => exact ⟨s, .nil, h⟩
  | cons t ts ih =>
      cases h with
      | cons hstep hrun =>
          obtain ⟨u, hts, hus⟩ := ih hrun
          exact ⟨u, .cons hstep hts, hus⟩

/-- A run takes its first token first. -/
theorem runs_cons_iff {t : Token} : Runs s (t :: ts) s' ↔ ∃ u, ParseStep s t u ∧ Runs u ts s' := by
  constructor
  · intro h
    cases h with
    | cons hstep hrun => exact ⟨_, hstep, hrun⟩
  · rintro ⟨u, hstep, hrun⟩
    exact .cons hstep hrun

/-- A run of one token is a step. -/
theorem runs_singleton_iff {t : Token} : Runs s [t] s' ↔ ParseStep s t s' := by
  rw [runs_cons_iff]
  constructor
  · rintro ⟨u, hstep, hrun⟩
    cases hrun
    exact hstep
  · intro hstep
    exact ⟨s', hstep, .nil⟩

/-- A run may go on by one token. -/
theorem Runs.snoc {t : Token} (h : Runs s ts u) (hstep : ParseStep u t s') : Runs s (ts ++ [t]) s' :=
  h.append (.cons hstep .nil)

theorem unlimited_step_eq_ok_iff {t : Token} :
    Rules.unlimited.step s t = .ok u ↔ ParseStep s t u := by
  rw [← step?_eq_some_iff]
  unfold Rules.step
  cases Rules.unlimited.step? s t with
  | none => exact ⟨fun h => absurd h (by simp), fun h => absurd h (by simp)⟩
  | some next =>
      exact ⟨fun h => congrArg some (Except.ok.inj h), fun h => congrArg _ (Option.some.inj h)⟩

/-- **Runs of the function are runs of the relation.** -/
theorem run_eq_ok_iff : Rules.unlimited.run s ts = .ok s' ↔ Runs s ts s' := by
  -- Both take the first token first, so the state that they start from varies.
  induction ts generalizing s with
  | nil =>
      constructor
      · intro h
        exact Except.ok.inj h ▸ .nil
      · intro h
        cases h
        rfl
  | cons t ts ih =>
      rw [Rules.run_cons]
      constructor
      · intro h
        cases hstep : Rules.unlimited.step s t with
        | error e =>
            rw [hstep] at h
            exact nomatch h
        | ok u =>
            rw [hstep] at h
            exact .cons (unlimited_step_eq_ok_iff.mp hstep) (ih.mp h)
      · intro h
        cases h with
        | cons hstep hrun =>
            rw [unlimited_step_eq_ok_iff.mpr hstep]
            exact ih.mpr hrun

end StateDiagram

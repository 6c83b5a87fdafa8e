import StateDiagram.Proofs.Reading

/-!
# `Proofs.Nesting` — how many blocks are open

The braces of a token list tell how many blocks are open at each of its places, and so does the stack
of the reading machine; the nesting limit is thus a condition on the beginnings of the token list. On
the tokens of a phrase it is a condition on the tree: no chain of blocks within blocks is too long.

## Contents

* `Kind.opening`, `openBlocks` — the blocks that tokens leave open;
* `ParseStep.length_blocks`, `Runs.length_blocks` — the stack has as many blocks as the tokens leave open;
* `standard_run_eq_ok_iff` — a run under the limit is a run that opens no more blocks at once;
* `Statement.height`, `height` — the longest chain of blocks within blocks;
* `Shallow`, `Derives.shallow_iff` — the two conditions agree on the tokens of a phrase;
* `parse_eq_ok_iff` — acceptance is derivability of a tree that is not too high;
* `parse_eq_ok_iff_isProgram` — the same by open blocks, and what it says of trees and names.
-/

namespace StateDiagram

/-! ## Braces and blocks -/

/-- The blocks that a token opens, less those that it closes. -/
def Kind.opening : Kind → Int
  | leftBrace => 1
  | rightBrace => -1
  | _ => 0

/-- **The blocks that tokens leave open**: their opening braces less their closing ones. -/
def openBlocks : List Token → Int
  | [] => 0
  | t :: ts => t.kind.opening + openBlocks ts

@[simp] theorem openBlocks_nil : openBlocks [] = 0 := rfl

@[simp] theorem openBlocks_cons (t : Token) (ts : List Token) :
    openBlocks (t :: ts) = t.kind.opening + openBlocks ts := rfl

@[simp] theorem openBlocks_append (ts us : List Token) :
    openBlocks (ts ++ us) = openBlocks ts + openBlocks us := by
  induction ts with
  | nil => simp
  | cons t ts ih => simp [ih, Int.add_assoc]

variable {s s' u : ParseState} {t : Token} {ts us : List Token}

/-- The members of a list are no braces. -/
theorem ListOwner.IsMember.opening_eq_zero {owner : ListOwner} {k : Kind}
    (h : owner.IsMember k) : k.opening = 0 := by
  cases owner with
  | accept =>
      obtain rfl : k = .state := h
      rfl
  | transition _ => obtain rfl | rfl := h <;> rfl

/-- Within a statement no block is opened or closed. -/
theorem Moves.opening_eq_zero {inState : Bool} {p q : Point} (h : Moves inState p t q) :
    t.kind.opening = 0 := by
  cases h with
  | member hm => exact hm.opening_eq_zero
  | label _ hk => rw [hk]; rfl
  | _ hk => rw [hk]; rfl

/-- A step opens or closes a block exactly if its token does. -/
theorem ParseStep.length_blocks (h : ParseStep s t s') :
    (s'.blocks.length : Int) = s.blocks.length + t.kind.opening := by
  cases h with
  | move hm => rw [hm.opening_eq_zero]; exact (Int.add_zero _).symm
  | beginMark _ hk => rw [hk]; exact (Int.add_zero _).symm
  | endMark _ hk => rw [hk]; exact (Int.add_zero _).symm
  | finish _ hk => rw [hk]; exact (Int.add_zero _).symm
  | openBlock _ hk => rw [hk]; rfl
  | @closeBlock b bs hb _ hk =>
      rw [hb, hk]
      show (bs.length : Int) = (bs.length + 1 : Nat) + (-1)
      omega

/-- **The stack has as many blocks as the tokens leave open.** -/
theorem Runs.length_blocks (h : Runs s ts s') :
    (s'.blocks.length : Int) = s.blocks.length + openBlocks ts := by
  induction h with
  | nil => simp
  | cons hstep _ ih =>
      rw [ih, hstep.length_blocks, openBlocks_cons, Int.add_assoc]

/-! ## The nesting limit -/

/-- A token that the grammar does not allow leads nowhere. -/
theorem step?_eq_none (h : ∀ u, ¬ ParseStep s t u) : Rules.unlimited.step? s t = none := by
  rw [Option.eq_none_iff_forall_not_mem]
  intro u hu
  exact h u (step?_eq_some_iff.mp hu)

/-- A token that the grammar does not allow is an error under the standard rules. -/
theorem standard_step_of_none (h : ∀ u, ¬ ParseStep s t u) :
    Rules.standard.step s t = .error (.atToken (s.point.fault (some t)) t) := by
  have hnone : Rules.standard.step? s t = none := step?_eq_none h
  rw [Rules.step, hnone]

/-- It is the same error without a limit. -/
theorem unlimited_step_of_none (h : ∀ u, ¬ ParseStep s t u) :
    Rules.unlimited.step s t = .error (.atToken (s.point.fault (some t)) t) := by
  rw [Rules.step, step?_eq_none h]

/-- A token that the grammar allows is taken under the standard rules if the limit is kept. -/
theorem standard_step_of_step (h : ParseStep s t u) :
    Rules.standard.step s t =
      if u.blocks.length ≤ 256 then .ok u else .error (.atToken (.tooDeep 256) t) := by
  have hsome : Rules.standard.step? s t = some u := step?_eq_some_iff.mpr h
  rw [Rules.step, hsome]
  rfl

theorem standard_step_eq_ok_iff :
    Rules.standard.step s t = .ok u ↔ ParseStep s t u ∧ u.blocks.length ≤ 256 := by
  constructor
  · intro h
    by_cases hstep : ∃ v, ParseStep s t v
    · obtain ⟨v, hv⟩ := hstep
      rw [standard_step_of_step hv] at h
      split at h
      next hle => exact Except.ok.inj h ▸ ⟨hv, hle⟩
      next => exact nomatch h
    · rw [standard_step_of_none (not_exists.mp hstep)] at h
      exact nomatch h
  · intro h
    rw [standard_step_of_step h.1, if_pos h.2]

/-- The blocks open at every place within `ts`, its beginning and end included, are at most `room`. -/
def Shallow (room : Int) (ts : List Token) : Prop :=
  ∀ us, us <+: ts → openBlocks us ≤ room

@[simp] theorem shallow_nil {room : Int} : Shallow room [] ↔ 0 ≤ room := by
  simp [Shallow]

@[simp] theorem shallow_cons {room : Int} :
    Shallow room (t :: ts) ↔ 0 ≤ room ∧ Shallow (room - t.kind.opening) ts := by
  constructor
  · intro h
    refine ⟨h [] (List.nil_prefix), fun us hus => ?_⟩
    have hcons := h (t :: us) (List.cons_prefix_cons.mpr ⟨rfl, hus⟩)
    rw [openBlocks_cons] at hcons
    omega
  · rintro ⟨h0, h⟩ us hus
    rcases List.prefix_cons_iff.mp hus with rfl | ⟨vs, rfl, hvs⟩
    · exact h0
    · have hle := h vs hvs
      rw [openBlocks_cons]
      omega

/-- What has been read in two pieces is shallow if each is, the second in the room that is left. -/
@[simp] theorem shallow_append {room : Int} :
    Shallow room (ts ++ us) ↔ Shallow room ts ∧ Shallow (room - openBlocks ts) us := by
  induction ts generalizing room with
  | nil =>
      simp only [List.nil_append, shallow_nil, openBlocks_nil, Int.sub_zero, iff_and_self]
      exact fun h => h [] List.nil_prefix
  | cons t ts ih =>
      rw [List.cons_append, shallow_cons, shallow_cons, ih, openBlocks_cons, and_assoc,
        Int.sub_sub]

/-- **A run under the limit** is a run that opens no more than 256 blocks at once. -/
theorem standard_run_eq_ok_iff (hs : s.blocks.length ≤ 256) :
    Rules.standard.run s ts = .ok s' ↔ Runs s ts s' ∧ Shallow (256 - s.blocks.length) ts := by
  -- The room left is what the limit leaves above the stack, so both change with each token.
  induction ts generalizing s with
  | nil =>
      rw [shallow_nil]
      constructor
      · intro h
        exact Except.ok.inj h ▸ ⟨.nil, by omega⟩
      · rintro ⟨h, -⟩
        cases h
        rfl
  | cons t ts ih =>
      rw [Rules.run_cons, shallow_cons]
      constructor
      · intro h
        cases hu : Rules.standard.step s t with
        | error e =>
            rw [hu] at h
            exact nomatch h
        | ok u =>
            rw [hu] at h
            obtain ⟨hstep, hle⟩ := standard_step_eq_ok_iff.mp hu
            obtain ⟨hrun, hshallow⟩ := (ih hle).mp h
            rw [hstep.length_blocks, ← Int.sub_sub] at hshallow
            exact ⟨.cons hstep hrun, by omega, hshallow⟩
      · rintro ⟨hrun, -, hshallow⟩
        cases hrun with
        | @cons _ u _ _ _ hstep hrun =>
            rw [Int.sub_sub, ← hstep.length_blocks] at hshallow
            have hle : u.blocks.length ≤ 256 := by
              -- The rest is shallow at its very beginning already.
              have hroom := hshallow [] List.nil_prefix
              rw [openBlocks_nil] at hroom
              omega
            rw [standard_step_eq_ok_iff.mpr ⟨hstep, hle⟩]
            exact (ih hle).mpr ⟨hrun, hshallow⟩

/-! ## The height of a tree -/

mutual

/-- How many blocks stand within each other in a statement, itself included. -/
def Statement.height : Statement → Nat
  | .machine _ body => height body + 1
  | .stateDef _ body => height body + 1
  | .beginMark | .endMark | .start _ | .accept _ | .transition .. => 0

/-- The length of the longest chain of blocks within blocks in several statements. -/
def height : List Statement → Nat
  | [] => 0
  | s :: ss => max s.height (height ss)

end

/-- The height of a phrase. -/
def Phrase.height : Phrase → Nat
  | one s => s.height
  | many ss => StateDiagram.height ss

/-- What stands between the brackets of a list holds no brace. -/
theorem Elements.shallow_iff {owner : ListOwner} {names : List String}
    (h : Elements owner.IsMember ts names) :
    openBlocks ts = 0 ∧ ∀ room, Shallow room ts ↔ 0 ≤ room := by
  induction h with
  | last ht => simp [ht.opening_eq_zero]
  | @more t c ts names ht hc _ ih =>
      have hcomma : c.kind.opening = 0 := by rw [hc]; rfl
      simp [ht.opening_eq_zero, hcomma, ih]

theorem Members.shallow_iff {owner : ListOwner} {names : List String}
    (h : Members owner.IsMember ts names) :
    openBlocks ts = 0 ∧ ∀ room, Shallow room ts ↔ 0 ≤ room := by
  cases h with
  | empty => simp
  | plain he => exact he.shallow_iff
  | trailing he hc => simp [he.shallow_iff, hc, Kind.opening]

/-- **The tokens of a phrase open as many blocks at once as the phrase is high**, and close all. -/
theorem Derives.shallow_iff {inState : Bool} {phrase : Phrase} (h : Derives inState phrase ts) :
    openBlocks ts = 0 ∧ ∀ room, Shallow room ts ↔ (phrase.height : Int) ≤ room := by
  -- That a phrase closes what it opens is needed for what follows it, so the two go together.
  induction h with
  | beginMark hk => simp [hk, Kind.opening, Phrase.height, Statement.height]
  | endMark hk => simp [hk, Kind.opening, Phrase.height, Statement.height]
  | machine hkw hname hl _ hr he ih =>
      simp only [Phrase.height] at ih
      simp [hkw, hname, hl, hr, he, Kind.opening, Phrase.height, Statement.height, ih]
      omega
  | stateDef hkw hname ha hl _ hr he ih =>
      simp only [Phrase.height] at ih
      simp [hkw, hname, ha, hl, hr, he, Kind.opening, Phrase.height, Statement.height, ih]
      omega
  | start hkw ha hname he =>
      simp [hkw, ha, hname, he, Kind.opening, Phrase.height, Statement.height]
  | @accept _ kw a l r e ts states hkw ha hl hts hr he =>
      have hlist := @Members.shallow_iff ts .accept states hts
      simp [hkw, ha, hl, hr, he, Kind.opening, Phrase.height, Statement.height, hlist]
  | @transition name a l r e ts targets hname ha hl hts hr he =>
      have hlist := @Members.shallow_iff ts (.transition name.value) targets hts
      simp [hname, ha, hl, hr, he, Kind.opening, Phrase.height, Statement.height, hlist]
  | nil => simp [Phrase.height, height]
  | cons _ _ ih ih' =>
      simp only [Phrase.height] at ih ih'
      simp only [Phrase.height, height, openBlocks_append, shallow_append, ih, ih']
      exact ⟨rfl, fun room => by omega⟩

/-! ## Acceptance under the limit -/

/-- The standard rules accept what the grammar derives without opening too many blocks at once. -/
theorem parse_eq_ok_iff_shallow {program : List Statement} :
    parse ts = .ok program ↔ IsProgram program ts ∧ Shallow 256 ts := by
  have hrun (s : ParseState) :
      Rules.standard.run .initial ts = .ok s ↔ Runs .initial ts s ∧ Shallow 256 ts :=
    standard_run_eq_ok_iff (Nat.zero_le _)
  rw [← runs_complete_iff]
  unfold parse Rules.parse
  constructor
  · intro h
    cases hr : Rules.standard.run .initial ts with
    | error e =>
        rw [hr] at h
        exact nomatch h
    | ok s =>
        rw [hr] at h
        rw [← finish_eq_ok_iff.mp h]
        exact (hrun s).mp hr
  · intro h
    rw [(hrun _).mpr h]
    exact finish_eq_ok_iff.mpr rfl

/-- **Acceptance is derivability of a tree that is not too high.** -/
theorem parse_eq_ok_iff {program : List Statement} :
    parse ts = .ok program ↔ IsProgram program ts ∧ height program ≤ 256 := by
  rw [parse_eq_ok_iff_shallow]
  apply and_congr_right
  intro h
  rw [h.shallow_iff.2, Phrase.height]
  omega

/-- No tokens are those of two programs. -/
theorem IsProgram.unique {p q : List Statement} (hp : IsProgram p ts) (hq : IsProgram q ts) :
    p = q := by
  have h := unlimited_parse_eq_ok_iff.mpr hp
  rw [unlimited_parse_eq_ok_iff.mpr hq] at h
  exact (Except.ok.inj h).symm

/-- **The parser is sound and complete for the grammar.** It returns a program exactly if the grammar
    derives the program from the tokens and no more than 256 blocks are ever open at once. No other
    program has a derivation from these tokens, and the names in the program are the texts of the
    tokens that are names, each once and in order. -/
theorem parse_eq_ok_iff_isProgram (ts : List Token) (program : List Statement) :
    (parse ts = .ok program ↔
      IsProgram program ts ∧ ∀ us, us <+: ts → openBlocks us ≤ 256) ∧
    (IsProgram program ts →
      (∀ other, IsProgram other ts → other = program) ∧ namesOf program = namedBy ts) :=
  ⟨parse_eq_ok_iff_shallow, fun h => ⟨fun _ h' => h'.unique h, h.names_eq⟩⟩

end StateDiagram

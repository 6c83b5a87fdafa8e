import StateDiagram.Proofs.FirstError

/-!
# `Proofs.NestingLimit` — what the nesting limit changes

The limit shows in one case only: some token opens the 257th of the blocks that are open together, and
up to that token the grammar has nothing to object. Then this token is the error, whatever follows. In
all other cases parsing is what it would be without a limit, down to its errors.

Blocks that are closed again never count. The braces tell how many are open, and statements that are
complete leave that number, and the stack of the parser, as they were.

## Contents

* `OpensTooMany` — the first place where one block too many is open;
* `OpensTooMany.shallow`, `opensTooMany_of_shallow` — no place before it has too many;
* `parse_eq_tooDeep` — what begins a program up to there fails there;
* `standard_step_eq_error_cases` — a token is an error under the limit for its nesting, or without it;
* `parse_eq_unlimited_parse` — in all other cases the limit makes no difference;
* `run_closed` — statements that are complete leave the open blocks as they were;
* `parse_nesting_limit` — all of it.
-/

namespace StateDiagram

variable {s u : ParseState} {t : Token} {ts us vs : List Token} {k : Nat} {e : SyntaxError}

/-! ## The first block too many -/

/-- **The first block too many** opens at place `k`, counted from zero: with the token there the braces
    leave 257 blocks open, and with no token before it. -/
structure OpensTooMany (ts : List Token) (k : Nat) : Prop where
  openBlocks_eq : openBlocks (ts.take (k + 1)) = 257
  openBlocks_ne : ∀ j < k, openBlocks (ts.take (j + 1)) ≠ 257

/-- A token opens one block at most. -/
theorem Kind.opening_le_one (kind : Kind) : kind.opening ≤ 1 := by
  cases kind <;> decide

theorem openBlocks_take_succ_le (ts : List Token) (j : Nat) :
    openBlocks (ts.take (j + 1)) ≤ openBlocks (ts.take j) + 1 := by
  rw [List.take_add_one, openBlocks_append]
  cases ts[j]? with
  | none =>
      rw [Option.toList_none, openBlocks_nil]
      omega
  | some t =>
      have hone := t.kind.opening_le_one
      simpa using hone

/-- Blocks are opened one by one, so before the first that is too many there are not too many. -/
theorem OpensTooMany.openBlocks_take_le (h : OpensTooMany ts k) {j : Nat} (hj : j ≤ k) :
    openBlocks (ts.take j) ≤ 256 := by
  induction j with
  | zero => simp
  | succ j ih =>
      have hbefore := ih (by omega)
      have hstep := openBlocks_take_succ_le ts j
      have hne := h.openBlocks_ne j (by omega)
      omega

theorem OpensTooMany.shallow (h : OpensTooMany ts k) : Shallow 256 (ts.take k) := by
  intro us hus
  obtain ⟨hstarts, hlength⟩ := List.prefix_take_iff.mp hus
  rw [List.prefix_iff_eq_take.mp hstarts]
  exact h.openBlocks_take_le hlength

/-- There is a token that opens the first block too many. -/
theorem OpensTooMany.exists_token (h : OpensTooMany ts k) :
    ∃ t, ts[k]? = some t ∧ ts.take (k + 1) = ts.take k ++ [t] := by
  cases ht : ts[k]? with
  | some t =>
      refine ⟨t, rfl, ?_⟩
      rw [List.take_add_one, ht]
      rfl
  | none =>
      have heq := h.openBlocks_eq
      have hle := h.openBlocks_take_le (Nat.le_refl k)
      rw [List.take_add_one, ht, Option.toList_none, List.append_nil] at heq
      omega

/-- A token that opens the 257th block after tokens that never had more than 256 open. -/
theorem opensTooMany_of_shallow (h : Shallow 256 us) (ht : openBlocks (us ++ [t]) = 257)
    (vs : List Token) : OpensTooMany (us ++ t :: vs) us.length := by
  refine ⟨?_, fun j hj => ?_⟩
  · rw [List.take_length_add_append]
    exact ht
  · have hle := h (us.take (j + 1)) (List.take_prefix _ _)
    rw [List.take_append_of_le_length (by omega)]
    omega

/-- Where there are never too many blocks open, there is no first one too many. -/
theorem Shallow.not_opensTooMany (h : Shallow 256 ts) : ¬ OpensTooMany ts k := by
  intro hk
  have hle := h _ (List.take_prefix (k + 1) ts)
  rw [hk.openBlocks_eq] at hle
  omega

/-! ## The error of the limit -/

/-- **One block too many is the error** where the grammar has nothing to object up to its brace, whatever
    follows. -/
theorem parse_eq_tooDeep (h : OpensTooMany ts k) (hviable : Viable ((ts.take (k + 1)).map Token.kind))
    (ht : ts.take (k + 1) = ts.take k ++ [t]) (hus : ts.take (k + 1) <+: us) :
    parse us = .error (.atToken (.tooDeep 256) t) := by
  obtain ⟨s', hrun⟩ := hviable.exists_runs
  rw [ht] at hrun
  obtain ⟨s, hbefore, hlast⟩ := hrun.split
  cases hlast with
  | cons hstep hnil =>
      cases hnil
      have hlength : (s'.blocks.length : Int) = 257 := by
        rw [hrun.length_blocks, ← ht, h.openBlocks_eq]
        rfl
      have hstandard : Rules.standard.run .initial (ts.take k) = .ok s :=
        (standard_run_eq_ok_iff (Nat.zero_le _)).mpr ⟨hbefore, h.shallow⟩
      have hfail : Rules.standard.step s t = .error (.atToken (.tooDeep 256) t) := by
        rw [standard_step_of_step hstep, if_neg (by omega)]
      rw [ht] at hus
      exact parse_eq_error_of_step hstandard hfail hus

/-- **A token that is an error under the limit** opens a block too many, or is the same error without a
    limit. -/
theorem standard_step_eq_error_cases (h : Rules.standard.step s t = .error e) :
    (∃ u, ParseStep s t u ∧ 256 < u.blocks.length) ∨ Rules.unlimited.step s t = .error e := by
  by_cases hstep : ∃ u, ParseStep s t u
  · obtain ⟨u, hu⟩ := hstep
    rw [standard_step_of_step hu] at h
    split at h
    next => cases h
    next hlength => exact .inl ⟨u, hu, by omega⟩
  · rw [standard_step_of_none (not_exists.mp hstep)] at h
    rw [unlimited_step_of_none (not_exists.mp hstep)]
    exact .inr h

/-- **In all other cases the limit makes no difference**: programs and errors are the same without it. -/
theorem parse_eq_unlimited_parse
    (h : ∀ k, OpensTooMany ts k → ¬ Viable ((ts.take (k + 1)).map Token.kind)) :
    parse ts = Rules.unlimited.parse ts := by
  cases hrun : Rules.standard.run .initial ts with
  | ok s =>
      have hunlimited : Rules.unlimited.run .initial ts = .ok s :=
        run_eq_ok_iff.mpr (runs_of_standard_run hrun)
      unfold parse Rules.parse
      rw [hrun, hunlimited]
  | error e =>
      obtain ⟨us, t, vs, u, rfl, hbefore, hfail⟩ := run_eq_error hrun
      obtain ⟨hruns, hshallow⟩ := (standard_run_eq_ok_iff (Nat.zero_le _)).mp hbefore
      have hstarts : us ++ [t] <+: us ++ t :: vs := ⟨vs, by simp⟩
      rcases standard_step_eq_error_cases hfail with ⟨u', hstep, hlength⟩ | hunlimited
      -- The token opens the first block too many, and it can stand where it does.
      · have hnext : Runs .initial (us ++ [t]) u' := hruns.snoc hstep
        have hopen : openBlocks (us ++ [t]) = 257 := by
          have hblocks := hnext.length_blocks
          have hbound : openBlocks us ≤ 256 := hshallow us List.prefix_rfl
          have hone := t.kind.opening_le_one
          have hzero : (ParseState.initial.blocks.length : Int) = 0 := rfl
          simp only [openBlocks_append, openBlocks_cons, openBlocks_nil] at hblocks ⊢
          omega
        have hviable := hnext.viable
        have htake : (us ++ t :: vs).take (us.length + 1) = us ++ [t] := by
          rw [List.take_length_add_append]
          rfl
        rw [← htake] at hviable
        exact absurd hviable (h _ (opensTooMany_of_shallow hshallow hopen vs))
      · have hbefore' : Rules.unlimited.run .initial us = .ok u := run_eq_ok_iff.mpr hruns
        have hparse : parse (us ++ t :: vs) = .error e :=
          parse_eq_error_of_step hbefore hfail hstarts
        rw [hparse, parse_eq_error_of_step hbefore' hunlimited hstarts]

/-! ## Closed blocks -/

/-- **Statements that are complete leave the open blocks as they were**, however many they are: there has
    to be room for the highest of them only. -/
theorem run_closed {inState : Bool} {ss : List Statement} (h : Derives inState (.many ss) ts)
    (hpoint : s.point = .statement) (hin : inState = true → inStateBlock s.blocks = true)
    (hroom : s.blocks.length + height ss ≤ 256) :
    Rules.standard.run s ts = .ok ⟨s.blocks, ss.reverse ++ s.body, .statement⟩ := by
  obtain ⟨blocks, body, point⟩ := s
  obtain rfl : point = .statement := hpoint
  dsimp only at hin hroom ⊢
  have hshallow : Shallow (256 - blocks.length) ts := by
    rw [h.shallow_iff.2, Phrase.height]
    omega
  exact (standard_run_eq_ok_iff (by dsimp only; omega)).mpr ⟨h.runs blocks body hin, hshallow⟩

/-! ## All of it -/

/-- **The nesting limit changes one thing only.** Let the braces of some tokens leave 257 blocks open, for
    the first time, at place `k`. If some program begins with the categories up to that place, then
    parsing fails with the token there, which is told with its text and its place, whatever follows.
    Where there is no such place, parsing gives what it gives without a limit, program or error.
    Complete statements leave no block open, and where a statement may begin, the parser reads any
    number of them and has the same blocks open as before. -/
theorem parse_nesting_limit (ts : List Token) :
    (∀ k, OpensTooMany ts k → Viable ((ts.take (k + 1)).map Token.kind) →
      ∃ t e, ts[k]? = some t ∧ e.fault.message = "Blocks nested deeper than 256 levels" ∧
        e.found = some t.value ∧ e.position = t.position ∧
        ∀ us, ts.take (k + 1) <+: us → parse us = .error e) ∧
    ((∀ k, OpensTooMany ts k → ¬ Viable ((ts.take (k + 1)).map Token.kind)) →
      parse ts = Rules.unlimited.parse ts) ∧
    (∀ inState ss, Derives inState (.many ss) ts → openBlocks ts = 0 ∧
      ∀ s : ParseState, s.point = .statement → (inState = true → inStateBlock s.blocks = true) →
        s.blocks.length + height ss ≤ 256 →
        Rules.standard.run s ts = .ok ⟨s.blocks, ss.reverse ++ s.body, .statement⟩) := by
  refine ⟨fun k hk hviable => ?_, parse_eq_unlimited_parse, fun inState ss h => ?_⟩
  · obtain ⟨t, ht, htake⟩ := hk.exists_token
    exact ⟨t, .atToken (.tooDeep 256) t, ht, rfl, rfl, rfl,
      fun us hus => parse_eq_tooDeep hk hviable htake hus⟩
  · exact ⟨h.shallow_iff.1, fun s hpoint hin hroom => run_closed h hpoint hin hroom⟩

/-- A closed block, then 256 blocks within each other, machines and states in turn, and one more: the
    brace of that one is the error. The closed block alone is read with and without a limit. -/
theorem parse_nesting_limit_mixed :
    let closed : List Token := [⟨.machine, "def", ⟨1, 1⟩⟩, ⟨.identifier, "m", ⟨1, 5⟩⟩,
      ⟨.leftBrace, "\x7b", ⟨1, 7⟩⟩, ⟨.rightBrace, "\x7d", ⟨1, 9⟩⟩, ⟨.semicolon, ";", ⟨1, 11⟩⟩]
    let two : List Token := [⟨.machine, "def", ⟨2, 1⟩⟩, ⟨.identifier, "m", ⟨2, 5⟩⟩,
      ⟨.leftBrace, "\x7b", ⟨2, 7⟩⟩, ⟨.stateDef, "STATE", ⟨3, 1⟩⟩, ⟨.identifier, "q", ⟨3, 7⟩⟩,
      ⟨.arrow, "->", ⟨3, 9⟩⟩, ⟨.leftBrace, "\x7b", ⟨3, 12⟩⟩]
    let before := closed ++ (List.replicate 128 two).flatten ++
      [⟨.machine, "def", ⟨4, 1⟩⟩, ⟨.identifier, "last", ⟨4, 5⟩⟩]
    let ts := before ++ [⟨.leftBrace, "\x7b", ⟨4, 10⟩⟩]
    (OpensTooMany ts 903 ∧ Viable ((ts.take 904).map Token.kind) ∧
      ∃ t e, ts[903]? = some t ∧ e.fault.message = "Blocks nested deeper than 256 levels" ∧
        e.found = some t.value ∧ e.position = t.position ∧
        ∀ us, ts.take 904 <+: us → parse us = .error e) ∧
    ((∀ k, OpensTooMany closed k → ¬ Viable ((closed.take (k + 1)).map Token.kind)) ∧
      parse closed = Rules.unlimited.parse closed) ∧
    (Derives false (.many [.machine "m" []]) closed ∧
      Rules.standard.run .initial closed = .ok ⟨[], [.machine "m" []], .statement⟩) := by
  intro closed two before ts
  have hlength : before.length = 903 := by decide +kernel
  have hshallow : Shallow 256 before := by
    have hok : (Rules.standard.run .initial before).toOption.isSome = true := by decide +kernel
    cases hrun : Rules.standard.run .initial before with
    | error e =>
        rw [hrun] at hok
        cases hok
    | ok s => exact ((standard_run_eq_ok_iff (Nat.zero_le _)).mp hrun).2
  have hopen : OpensTooMany ts 903 := by
    rw [← hlength]
    exact opensTooMany_of_shallow hshallow (by decide +kernel) []
  have hviable : Viable ((ts.take 904).map Token.kind) := by
    have hok : (Rules.unlimited.run .initial (ts.take 904)).toOption.isSome = true := by
      decide +kernel
    cases hrun : Rules.unlimited.run .initial (ts.take 904) with
    | error e =>
        rw [hrun] at hok
        cases hok
    | ok s => exact (run_eq_ok_iff.mp hrun).viable
  have hclosed : Derives false (.many [.machine "m" []]) closed :=
    unlimited_parse_eq_ok_iff.mp rfl
  have hnone : ∀ k, OpensTooMany closed k → ¬ Viable ((closed.take (k + 1)).map Token.kind) := by
    intro k hk
    have hroom : Shallow 256 closed := by
      rw [hclosed.shallow_iff.2]
      decide
    exact absurd hk hroom.not_opensTooMany
  exact ⟨⟨hopen, hviable, (parse_nesting_limit ts).1 903 hopen hviable⟩,
    ⟨hnone, (parse_nesting_limit closed).2.1 hnone⟩,
    hclosed, ((parse_nesting_limit closed).2.2 false _ hclosed).2 .initial rfl nofun (by decide)⟩

end StateDiagram

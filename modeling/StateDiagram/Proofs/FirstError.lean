import StateDiagram.Proofs.Nesting

/-!
# `Proofs.FirstError` — where a syntax error shows

An error is found as early as it can be. The tokens before the place that is reported still begin some
program; with the token at that place they begin none, or there is no such token. So nothing that
follows can change the error, and no error is blamed on a token that could stand.

The grammar's own beginnings are meant, those without a nesting limit; an error of the limit itself
is of another kind.

## Contents

* `run_eq_error` — a run that fails does so at one of its tokens;
* `step_eq_error` — and is reported there;
* `parse_eq_error_of_step` — whatever follows;
* `parse_eq_error_cases` — a parse fails at a token, or at the end of the tokens;
* `not_viable_of_no_step` — a token that the machine refuses continues no program;
* `parse_error_earliest` — the error shows at the earliest place.
-/

namespace StateDiagram

variable {ts us : List Token} {t : Token} {s u : ParseState} {e : SyntaxError}

/-- A run that fails has read all tokens before one that it cannot take. -/
theorem run_eq_error {rules : Rules} (h : rules.run s ts = .error e) :
    ∃ us t vs u, ts = us ++ t :: vs ∧ rules.run s us = .ok u ∧ rules.step u t = .error e := by
  induction ts generalizing s with
  | nil => exact nomatch h
  | cons t ts ih =>
      rw [Rules.run_cons] at h
      cases hstep : rules.step s t with
      | error e' =>
          rw [hstep] at h
          obtain rfl : e' = e := Except.error.inj h
          exact ⟨[], t, ts, s, rfl, rfl, hstep⟩
      | ok u =>
          rw [hstep] at h
          obtain ⟨us, t', vs, u', rfl, hrun, hfail⟩ := ih h
          refine ⟨t :: us, t', vs, u', rfl, ?_, hfail⟩
          rw [Rules.run_cons, hstep]
          exact hrun

/-- A token that is an error is reported with its text and its place. -/
theorem step_eq_error {rules : Rules} (h : rules.step s t = .error e) :
    ∃ fault, e = .atToken fault t := by
  unfold Rules.step at h
  split at h
  next => exact ⟨_, (Except.error.inj h).symm⟩
  next =>
    split at h
    next => exact nomatch h
    next =>
      split at h
      next => exact nomatch h
      next => exact ⟨_, (Except.error.inj h).symm⟩

/-- What follows a token that is an error is never looked at. -/
theorem parse_eq_error_of_step {rules : Rules} (hrun : rules.run .initial us = .ok u)
    (hstep : rules.step u t = .error e) (h : us ++ [t] <+: ts) : rules.parse ts = .error e := by
  obtain ⟨vs, rfl⟩ := h
  unfold Rules.parse
  rw [List.append_assoc, Rules.run_append, hrun]
  show ((rules.run u (t :: vs)).bind _) = _
  rw [Rules.run_cons, hstep]
  rfl

/-- Tokens that end too early are in error just past the last of them. -/
theorem atEnd_of_getLast {fault : Fault} {last : Token} (h : ts.getLast? = some last) :
    SyntaxError.atEnd fault ts = ⟨fault, none, last.endPosition⟩ := by
  rw [SyntaxError.atEnd, h]
  rfl

/-- A run from the start under the limit is a run of the relation. -/
theorem runs_of_standard_run (h : Rules.standard.run .initial ts = .ok s) : Runs .initial ts s :=
  ((standard_run_eq_ok_iff (Nat.zero_le _)).mp h).1

/-- **Where a parse fails**: at a token that the machine cannot take, whatever follows it, or at the
    end of tokens that it has all taken. -/
theorem parse_eq_error_cases (h : parse ts = .error e) :
    (∃ us t vs u, ts = us ++ t :: vs ∧ Runs .initial us u ∧ Rules.standard.step u t = .error e ∧
      ∀ ws, us ++ [t] <+: ws → parse ws = .error e) ∨
    (∃ s, Runs .initial ts s ∧ s.isComplete = false ∧ e = .atEnd (s.point.fault none) ts) := by
  unfold parse Rules.parse at h
  cases hr : Rules.standard.run .initial ts with
  | error e' =>
      rw [hr] at h
      obtain rfl : e' = e := Except.error.inj h
      obtain ⟨us, t, vs, u, rfl, hrun, hstep⟩ := run_eq_error hr
      exact .inl ⟨us, t, vs, u, rfl, runs_of_standard_run hrun, hstep,
        fun ws hws => parse_eq_error_of_step hrun hstep hws⟩
  | ok s =>
      rw [hr] at h
      refine .inr ⟨s, runs_of_standard_run hr, ?_⟩
      replace h : s.finish ts = .error e := h
      unfold ParseState.finish at h
      cases hc : s.isComplete with
      | true =>
          rw [hc] at h
          exact nomatch h
      | false =>
          rw [hc] at h
          exact ⟨rfl, (Except.error.inj h).symm⟩

/-- The machine is in one state at most after given tokens. -/
theorem Runs.unique {s₁ s₂ : ParseState} (h₁ : Runs s ts s₁) (h₂ : Runs s ts s₂) : s₁ = s₂ := by
  have h := run_eq_ok_iff.mpr h₁
  rw [run_eq_ok_iff.mpr h₂] at h
  exact (Except.ok.inj h).symm

/-- A token that the machine cannot take continues no program. -/
theorem not_viable_of_no_step (hrun : Runs .initial ts s) (hstep : ∀ u, ¬ ParseStep s t u) :
    ¬ Viable ((ts ++ [t]).map Token.kind) := by
  -- The machine reads all that can be completed, and is in the given state before the last token.
  intro h
  obtain ⟨u, hu⟩ := h.exists_runs
  obtain ⟨s', hs', hlast⟩ := hu.split
  obtain rfl := hs'.unique hrun
  cases hlast with
  | cons hstep' _ => exact hstep _ hstep'

/-- An error that is not one of the limit shows at a token that continues no program. -/
theorem no_step_of_step_eq_error (h : Rules.standard.step s t = .error e)
    (hlimit : e.fault ≠ .tooDeep 256) :
    (∀ u, ¬ ParseStep s t u) ∧ e = .atToken (s.point.fault (some t)) t := by
  by_cases hstep : ∃ u, ParseStep s t u
  · obtain ⟨u, hu⟩ := hstep
    rw [standard_step_of_step hu] at h
    split at h
    next => exact nomatch h
    next =>
      obtain rfl := Except.error.inj h
      exact absurd rfl hlimit
  · refine ⟨not_exists.mp hstep, ?_⟩
    rw [standard_step_of_none (not_exists.mp hstep)] at h
    exact (Except.error.inj h).symm

/-- Tokens that are all taken, but to an incomplete state, are those of no program. -/
theorem not_grammatical_of_incomplete (hrun : Runs .initial ts s) (hs : s.isComplete = false) :
    ¬ Grammatical (ts.map Token.kind) := by
  intro h
  obtain ⟨program, hprogram⟩ := h.exists_program
  rw [hrun.unique (runs_complete_iff.mpr hprogram)] at hs
  exact nomatch hs

/-- No tokens at all are a program, so tokens that lead to an incomplete state have a last one. -/
theorem getLast_of_incomplete (hrun : Runs .initial ts s) (hs : s.isComplete = false) :
    ∃ last, ts.getLast? = some last := by
  cases hts : ts.getLast? with
  | some last => exact ⟨last, rfl⟩
  | none =>
      rw [List.getLast?_eq_none_iff] at hts
      subst hts
      cases hrun
      exact nomatch hs

/-- **Errors are found as early as they can be.** A parse that fails for another reason than nesting
    has `k` tokens that begin a program. Either the next token makes that impossible: then the error
    shows at that token, and every list that starts with these `k + 1` tokens fails in the same way.
    Or there is no next token, though there are some, and they are no program: then the error shows
    just past the last one. -/
theorem parse_error_earliest (ts : List Token) (e : SyntaxError) (h : parse ts = .error e)
    (hlimit : e.fault ≠ .tooDeep 256) :
    ∃ k, Viable ((ts.take k).map Token.kind) ∧
      ((∃ t, ts[k]? = some t ∧ ¬ Viable ((ts.take (k + 1)).map Token.kind) ∧
          e.found = some t.value ∧ e.position = t.position ∧
          ∀ us, ts.take (k + 1) <+: us → parse us = .error e) ∨
        (k = ts.length ∧ 0 < k ∧ ¬ Grammatical (ts.map Token.kind) ∧ e.found = none ∧
          ∃ last, ts.getLast? = some last ∧
            e.position = ⟨last.position.row, last.endCol⟩)) := by
  rcases parse_eq_error_cases h with ⟨us, t, vs, u, rfl, hrun, hstep, hall⟩ | ⟨s, hrun, hs, rfl⟩
  -- The tokens before the one that fails are those of a run, and no state is a dead end.
  · obtain ⟨hnone, rfl⟩ := no_step_of_step_eq_error hstep hlimit
    have htake : (us ++ t :: vs).take us.length = us := List.take_left
    have htake' : (us ++ t :: vs).take (us.length + 1) = us ++ [t] := by
      rw [List.take_length_add_append]
      rfl
    refine ⟨us.length, by rw [htake]; exact hrun.viable, .inl ⟨t, ?_, ?_, rfl, rfl, ?_⟩⟩
    · simp
    · rw [htake']
      exact not_viable_of_no_step hrun hnone
    · rw [htake']
      exact hall
  -- All tokens are taken, and there are some.
  · obtain ⟨last, hlast⟩ := getLast_of_incomplete hrun hs
    refine ⟨ts.length, by rw [List.take_length]; exact hrun.viable, .inr ⟨rfl, ?_, ?_, rfl, ?_⟩⟩
    · exact List.length_pos_of_mem (List.mem_of_getLast? hlast)
    · exact not_grammatical_of_incomplete hrun hs
    · refine ⟨last, hlast, ?_⟩
      rw [SyntaxError.atEnd, hlast]
      rfl

/-- A start state without its semicolon: the marker in the semicolon's place is the first token that
    no program can have there. -/
theorem parse_error_earliest_of_missing_semicolon :
    let ts : List Token := [⟨.start, "START", ⟨1, 1⟩⟩, ⟨.arrow, "->", ⟨1, 7⟩⟩,
      ⟨.state, "q", ⟨1, 10⟩⟩, ⟨.endMark, "END", ⟨2, 1⟩⟩]
    let e : SyntaxError := ⟨.expected .startEnd, some "END", ⟨2, 1⟩⟩
    parse ts = .error e ∧ e.fault ≠ .tooDeep 256 ∧
    ∃ k, Viable ((ts.take k).map Token.kind) ∧
      ((∃ t, ts[k]? = some t ∧ ¬ Viable ((ts.take (k + 1)).map Token.kind) ∧
          e.found = some t.value ∧ e.position = t.position ∧
          ∀ us, ts.take (k + 1) <+: us → parse us = .error e) ∨
        (k = ts.length ∧ 0 < k ∧ ¬ Grammatical (ts.map Token.kind) ∧ e.found = none ∧
          ∃ last, ts.getLast? = some last ∧
            e.position = ⟨last.position.row, last.endCol⟩)) :=
  ⟨rfl, by decide, parse_error_earliest _ _ rfl (by decide)⟩

end StateDiagram

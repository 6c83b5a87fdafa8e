import StateDiagram.Proofs.Descent

/-!
# `Proofs.DescentSteps` — the descent beside the reading machine

At each of its moments a descent has read what leads the machine to some state, and has as many blocks
open as that state. One lemma for each thing that a descent does keeps this up, and with it what holds
at each of the moments noted. Where the descent fails, the machine can go no further, so the error is
that of the whole parse.

A piece of a descent is then described by what it gives when it is begun at some moment, and nothing
below opens its definition in the monad again.

## Contents

* `Counters.Stands`, `Counters.Passed`, `Event.Holds`, `Trail.Holds` — what holds of a descent;
* `Descent.At` — the descent stands where the machine does; `Descent.At.advance`, `Descent.At.call`,
  `Descent.At.begin` and others — it goes on doing so;
* `Descent.Reached.parse_eq_atToken`, `Descent.Reached.parse_eq_atEnd` — the errors;
* `Descent.Gives`, `Descent.gives_bind`, `Descent.gives_call`, `Descent.gives_round` — what pieces give;
* `Descent.Wants` — where the grammar wants a token of one category;
* `Descent.gives_expect`, `Descent.gives_expectOneOf`, `Descent.gives_openBlock` — tokens.
-/

namespace StateDiagram

/-! ## What holds of a descent -/

/-- **Where a descent may stand** with `n` blocks open: after tokens that the machine takes, and that
    leave `n` blocks open by its stack and by their braces. -/
structure Counters.Stands (ts : List Token) (c : Counters) (n : Nat) : Prop where
  position_le : c.position ≤ ts.length
  run_eq : ∃ s, Rules.standard.run .initial (ts.take c.position) = .ok s ∧ s.blocks.length = n
  openBlocks_eq : openBlocks (ts.take c.position) = n
  open_le : n ≤ 256
  rounds_le : c.rounds ≤ c.position + 1
  active_le : c.active ≤ 257

/-- **From one moment to a later one** at least one token has been read, and all is closed that was
    opened. The rounds begun have each passed a token. -/
structure Counters.Passed (before after : Counters) : Prop where
  position_lt : before.position < after.position
  depth_eq : after.depth = before.depth
  active_eq : after.active = before.active
  rounds_le : after.rounds ≤ after.position

theorem Counters.Passed.trans {c d e : Counters} (h : c.Passed d) (h' : d.Passed e) : c.Passed e :=
  ⟨Nat.lt_trans h.position_lt h'.position_lt, h'.depth_eq.trans h.depth_eq,
    h'.active_eq.trans h.active_eq, h'.rounds_le⟩

/-- **What holds at a moment** of a descent. The depth is the number of blocks open, except that it is
    still to grow when the brace of a block has just been read, and to shrink when a block has just
    been closed. What has returned or is over has read something. -/
def Event.Holds (ts : List Token) : Event → Prop
  | reads c => c.Stands ts c.depth ∧ c.position < ts.length
  | raises c => c.Stands ts (c.depth + 1)
  | lowers c => 0 < c.depth ∧ c.Stands ts (c.depth - 1)
  | calls _ c => c.Stands ts c.depth
  | returns _ before after => after.Stands ts after.depth ∧ before.Passed after
  | begins c => c.Stands ts c.depth
  | ends before after => after.Stands ts after.depth ∧ before.Passed after

/-- **What holds of a trail** and of the counters at its end, which are those that the moments make. If
    the descent has failed, the last token passed may be the one at fault; it has opened and closed no
    block. -/
structure Trail.Holds (ts : List Token) (p : Trail) : Prop where
  now_eq : p.now = countersAfter p.events
  events : ∀ event ∈ p.events, event.Holds ts
  position_le : p.now.position ≤ ts.length
  stands : ∃ k, k ≤ p.now.position ∧ p.now.position ≤ k + 1 ∧
    { p.now with position := k }.Stands ts p.now.depth

/-- There are no more rounds than tokens and one more. -/
theorem Trail.Holds.rounds_le {ts : List Token} {p : Trail} (h : p.Holds ts) :
    p.now.rounds ≤ ts.length + 1 := by
  obtain ⟨k, hk, -, hstands⟩ := h.stands
  have hrounds : p.now.rounds ≤ k + 1 := hstands.rounds_le
  have hposition := h.position_le
  omega

namespace Descent

/-! ## The machine beside the descent -/

/-- The descent has read what leads the machine to a state. -/
structure Reached (ts : List Token) (p : Trail) (s : ParseState) : Prop where
  position_le : p.now.position ≤ ts.length
  run_eq : Rules.standard.run .initial (ts.take p.now.position) = .ok s
  rounds_le : p.now.rounds ≤ p.now.position + 1
  active_le : p.now.active ≤ 257
  now_eq : p.now = countersAfter p.events
  events : ∀ event ∈ p.events, event.Holds ts

/-- The descent stands where the machine does, with the same blocks open. -/
structure At (ts : List Token) (p : Trail) (s : ParseState) : Prop extends Reached ts p s where
  depth_eq : p.now.depth = s.blocks.length

variable {α β : Type} {ts : List Token} {t : Token} {s u : ParseState} {p q : Trail} {n : Nat}
  {kind : Kind} {kinds : List Kind} {what : Expectation} {fault : Fault} {rule : Production}
  {before : Counters} {e : SyntaxError}

theorem Reached.blocks_length_le (h : Reached ts p s) : s.blocks.length ≤ 256 := by
  have hrun := (standard_run_eq_ok_iff (Nat.zero_le _)).mp h.run_eq
  have hblocks := hrun.1.length_blocks
  have hshallow := hrun.2 _ List.prefix_rfl
  have hzero : ParseState.initial.blocks.length = 0 := rfl
  omega

/-- What is known of the descent holds of counters that tell as many tokens. -/
theorem Reached.stands_of {c : Counters} (h : Reached ts p s)
    (hposition : c.position = p.now.position) (hrounds : c.rounds ≤ p.now.position + 1)
    (hactive : c.active ≤ 257) (hn : s.blocks.length = n) : c.Stands ts n := by
  obtain ⟨position, depth, rounds, active⟩ := c
  obtain rfl : position = p.now.position := hposition
  have hblocks := (runs_of_standard_run h.run_eq).length_blocks
  have hzero : ParseState.initial.blocks.length = 0 := rfl
  have hopen : openBlocks (ts.take p.now.position) = n := by omega
  have hle : n ≤ 256 := hn ▸ h.blocks_length_le
  exact ⟨h.position_le, ⟨s, h.run_eq, hn⟩, hopen, hle, hrounds, hactive⟩

theorem Reached.stands (h : Reached ts p s) (hn : s.blocks.length = n) : p.now.Stands ts n :=
  h.stands_of rfl h.rounds_le h.active_le hn

theorem At.stands (h : At ts p s) : p.now.Stands ts p.now.depth :=
  h.toReached.stands h.depth_eq.symm

theorem At.holds (h : At ts p s) : p.Holds ts :=
  ⟨h.now_eq, h.events, h.position_le, p.now.position, Nat.le_refl _, Nat.le_succ _, h.stands⟩

/-- A moment at which no token is passed. -/
theorem Reached.noted {event : Event} (h : Reached ts p s)
    (hposition : (event.effect p.now).position = p.now.position)
    (hrounds : (event.effect p.now).rounds ≤ p.now.position + 1)
    (hactive : (event.effect p.now).active ≤ 257) (hevent : event.Holds ts) :
    Reached ts (p.note event) s := by
  have hevents := List.forall_mem_cons.mpr ⟨hevent, h.events⟩
  refine ⟨?_, ?_, ?_, hactive, congrArg event.effect h.now_eq, hevents⟩
  · show (event.effect p.now).position ≤ ts.length
    rw [hposition]
    exact h.position_le
  · show Rules.standard.run .initial (ts.take (event.effect p.now).position) = .ok s
    rw [hposition]
    exact h.run_eq
  · show (event.effect p.now).rounds ≤ (event.effect p.now).position + 1
    rw [hposition]
    exact hrounds

/-! ### Moving on -/

/-- A token that is there may be passed, whether the machine takes it or not. -/
theorem At.holds_advance (h : At ts p s) (ht : ts[p.now.position]? = some t) :
    p.advance.Holds ts := by
  obtain ⟨hlt, -⟩ := List.getElem?_eq_some_iff.mp ht
  have hreads : (Event.reads p.now).Holds ts := ⟨h.stands, hlt⟩
  have hevents := List.forall_mem_cons.mpr ⟨hreads, h.events⟩
  exact ⟨congrArg (Event.effect (.reads p.now)) h.now_eq, hevents, hlt, p.now.position,
    Nat.le_succ _, Nat.le_refl _, h.stands⟩

/-- A token that the machine takes. -/
theorem At.advance_reached (h : At ts p s) (ht : ts[p.now.position]? = some t)
    (hstep : Rules.standard.step s t = .ok u) : Reached ts p.advance u := by
  have hadvance := h.holds_advance ht
  refine ⟨hadvance.position_le, ?_, Nat.le_succ_of_le h.rounds_le, h.active_le, hadvance.now_eq,
    hadvance.events⟩
  show Rules.standard.run .initial (ts.take (p.now.position + 1)) = .ok u
  rw [List.take_add_one, ht, Rules.run_append, h.run_eq]
  show (Rules.standard.step s t).bind _ = .ok u
  rw [hstep]
  rfl

/-- A token that the machine takes without opening or closing a block. -/
theorem At.advance (h : At ts p s) (ht : ts[p.now.position]? = some t) (hstep : ParseStep s t u)
    (hblocks : u.blocks = s.blocks) : At ts p.advance u := by
  have hle : u.blocks.length ≤ 256 := by
    rw [hblocks]
    exact h.blocks_length_le
  have hreached := h.advance_reached ht (standard_step_eq_ok_iff.mpr ⟨hstep, hle⟩)
  refine ⟨hreached, ?_⟩
  show p.now.depth = u.blocks.length
  rw [hblocks]
  exact h.depth_eq

/-- The brace of a block has been read, and the block counts as open. -/
theorem Reached.raise (h : Reached ts p s) (hdepth : p.now.depth + 1 = s.blocks.length) :
    At ts p.raise s :=
  ⟨h.noted rfl h.rounds_le h.active_le (h.stands hdepth.symm), hdepth⟩

/-- A block has been closed, and no longer counts as open. -/
theorem Reached.lower (h : Reached ts p s) (hdepth : p.now.depth = s.blocks.length + 1) :
    At ts p.lower s := by
  have hlower : p.now.depth - 1 = s.blocks.length := by omega
  have hlowers : (Event.lowers p.now).Holds ts := ⟨by omega, h.stands hlower.symm⟩
  exact ⟨h.noted rfl h.rounds_le h.active_le hlowers, hlower⟩

/-- A rule is called. -/
theorem At.call (h : At ts p s) (hactive : p.now.active + rule.isBlock.toNat ≤ 257) :
    At ts (p.call rule) s := by
  have hcalls := h.toReached.stands_of (c := (p.call rule).now) rfl h.rounds_le hactive
    h.depth_eq.symm
  exact ⟨h.toReached.noted rfl h.rounds_le hactive hcalls, h.depth_eq⟩

/-- A rule returns, having read something. -/
theorem At.back (h : At ts q s) (hpassed : (p.call rule).now.Passed q.now) :
    At ts (q.back rule p.now) s ∧ p.now.Passed (q.back rule p.now).now := by
  have hactive : q.now.active - rule.isBlock.toNat = p.now.active := by
    rw [hpassed.active_eq]
    exact Nat.add_sub_cancel _ _
  have hle : q.now.active - rule.isBlock.toNat ≤ 257 := Nat.le_trans (Nat.sub_le _ _) h.active_le
  have hback : p.now.Passed (q.back rule p.now).now :=
    ⟨hpassed.position_lt, hpassed.depth_eq, hactive, hpassed.rounds_le⟩
  have hstands := h.toReached.stands_of (c := (q.back rule p.now).now) rfl h.rounds_le hle
    h.depth_eq.symm
  exact ⟨⟨h.toReached.noted rfl h.rounds_le hle ⟨hstands, hback⟩, h.depth_eq⟩, hback⟩

/-- A round begins, when all rounds before it have passed a token each. -/
theorem At.begin (h : At ts p s) (hrounds : p.now.rounds ≤ p.now.position) : At ts p.begin s := by
  have hbegins := h.toReached.stands_of (c := p.begin.now) rfl (Nat.succ_le_succ hrounds) h.active_le
    h.depth_eq.symm
  exact ⟨h.toReached.noted rfl (Nat.succ_le_succ hrounds) h.active_le hbegins, h.depth_eq⟩

/-- A round is over, having read something. -/
theorem At.finish (h : At ts q s) (hpassed : before.Passed q.now) : At ts (q.finish before) s :=
  ⟨h.toReached.noted rfl h.rounds_le h.active_le ⟨h.stands, hpassed⟩, h.depth_eq⟩

/-- A token has been passed. -/
theorem At.passed (h : At ts p s) : p.now.Passed p.advance.now :=
  ⟨Nat.lt_succ_self _, rfl, rfl, h.rounds_le⟩

/-- The number of a round makes no difference to what it passes. -/
theorem passed_of_begin {c : Counters} (h : p.begin.now.Passed c) : p.now.Passed c :=
  ⟨h.position_lt, h.depth_eq, h.active_eq, h.rounds_le⟩

/-! ### Failing -/

/-- A token that the machine refuses is the error of the parse. -/
theorem Reached.parse_eq_atToken (h : Reached ts p s) (ht : ts[p.now.position]? = some t)
    (hstep : Rules.standard.step s t = .error e) : parse ts = .error e := by
  refine parse_eq_error_of_step h.run_eq hstep ?_
  have htake : ts.take (p.now.position + 1) = ts.take p.now.position ++ [t] := by
    rw [List.take_add_one, ht]
    rfl
  rw [← htake]
  exact List.take_prefix _ _

/-- Where no token is left, the machine has read them all. -/
theorem Reached.run_all (h : Reached ts p s) (hnone : ts[p.now.position]? = none) :
    Rules.standard.run .initial ts = .ok s := by
  have hrun := h.run_eq
  rwa [List.take_of_length_le (List.getElem?_eq_none_iff.mp hnone)] at hrun

/-- Tokens that end in an incomplete state are an error at their end. -/
theorem Reached.parse_eq_atEnd (h : Reached ts p s) (hnone : ts[p.now.position]? = none)
    (hs : s.isComplete = false) : parse ts = .error (.atEnd (s.point.fault none) ts) := by
  unfold parse Rules.parse
  rw [h.run_all hnone]
  show s.finish ts = _
  unfold ParseState.finish
  rw [hs]
  rfl

/-! ## What pieces give -/

/-- **What a piece of a descent gives**: it ends, with what is wanted of its result and its trail, or
    with the error of the whole parse. -/
def Gives (ts : List Token) (piece : Descent α) (p : Trail) (post : α → Trail → Prop) : Prop :=
  match piece.run.run p with
  | none => False
  | some (.ok result, q) => post result q
  | some (.error e, q) => parse ts = .error e ∧ q.Holds ts

variable {piece : Descent α} {next : α → Descent β} {post post' : α → Trail → Prop}
  {postNext : β → Trail → Prop}

theorem gives_pure {result : α} (h : post result p) : Gives ts (pure result) p post := h

theorem gives_throw (h : parse ts = .error e) (hholds : p.Holds ts) : Gives ts (throw e) p post :=
  ⟨h, hholds⟩

theorem gives_modify {f : Trail → Trail} {post : PUnit → Trail → Prop} (h : post () (f p)) :
    Gives ts (modify f) p post := h

theorem gives_get {post : Trail → Trail → Prop} (h : post p p) : Gives ts get p post := h

theorem gives_peek {post : Option Token → Trail → Prop} (h : post ts[p.now.position]? p) :
    Gives ts (peek ts) p post := h

/-- A piece and what follows it. -/
theorem gives_bind (h : Gives ts piece p fun result q => Gives ts (next result) q postNext) :
    Gives ts (piece >>= next) p postNext := by
  have hrun : (piece >>= next).run.run p =
      (piece.run.run p).bind fun out =>
        match out.1 with
        | .ok result => (next result).run.run out.2
        | .error e => some (.error e, out.2) := by
    rw [ExceptT.run_bind, StateT.run_bind]
    show Option.bind _ _ = _
    congr 1
    funext out
    obtain ⟨result | e, q⟩ := out <;> rfl
  unfold Gives at h ⊢
  rw [hrun]
  cases hpiece : piece.run.run p with
  | none =>
      rw [hpiece] at h
      exact h.elim
  | some out =>
      rw [hpiece] at h
      obtain ⟨e | result, q⟩ := out
      · exact h
      · exact h

/-- What is wanted may be weakened. -/
theorem Gives.mono (h : Gives ts piece p post) (hpost : ∀ result q, post result q → post' result q) :
    Gives ts piece p post' := by
  unfold Gives at h ⊢
  cases hpiece : piece.run.run p with
  | none =>
      rw [hpiece] at h
      exact h
  | some out =>
      rw [hpiece] at h
      obtain ⟨e | result, q⟩ := out
      · exact h
      · exact hpost result q h

/-- A call of a rule is what the rule reads, between two moments. -/
theorem gives_call
    (h : Gives ts piece (p.call rule) fun result q => post result (q.back rule p.now)) :
    Gives ts (call rule piece) p post := by
  apply gives_bind
  apply gives_get
  apply gives_bind
  apply gives_modify
  apply gives_bind
  exact h.mono fun result q hq => gives_bind (gives_modify (gives_pure hq))

/-- A round of a loop is what is read in it, between two moments. -/
theorem gives_round
    (h : Gives ts piece p.begin fun result q => post result (q.finish p.begin.now)) :
    Gives ts (round piece) p post := by
  apply gives_bind
  apply gives_modify
  apply gives_bind
  apply gives_get
  apply gives_bind
  exact h.mono fun result q hq => gives_bind (gives_modify (gives_pure hq))

/-! ## Tokens -/

/-- Looking at the category of the next token, by its two outcomes. -/
theorem gives_nextIs {post : Bool → Trail → Prop}
    (hyes : ∀ t, ts[p.now.position]? = some t → t.kind = kind → post true p)
    (hno : (∀ t, ts[p.now.position]? = some t → t.kind ≠ kind) → post false p) :
    Gives ts (nextIs ts kind) p post := by
  unfold nextIs
  apply gives_bind
  apply gives_peek
  apply gives_pure
  cases ht : ts[p.now.position]? with
  | none =>
      apply hno
      intro t ht'
      cases ht.symm.trans ht'
  | some t =>
      show post (t.kind == kind) p
      by_cases hkind : t.kind = kind
      · rw [beq_iff_eq.mpr hkind]
        exact hyes t ht hkind
      · rw [beq_eq_false_iff_ne.mpr hkind]
        apply hno
        intro t' ht'
        cases ht.symm.trans ht'
        exact hkind

/-- Passing the next token if it is of a category, by the two outcomes. -/
theorem gives_accepts {post : Bool → Trail → Prop}
    (hyes : ∀ t, ts[p.now.position]? = some t → t.kind = kind → post true p.advance)
    (hno : (∀ t, ts[p.now.position]? = some t → t.kind ≠ kind) → post false p) :
    Gives ts (accepts ts kind) p post := by
  unfold accepts
  apply gives_bind
  apply gives_nextIs
  · intro t ht hkind
    show Gives ts (advance >>= fun _ => pure true) p post
    apply gives_bind
    apply gives_modify
    exact gives_pure (hyes t ht hkind)
  · intro hother
    exact gives_pure (hno hother)

/-- Failing where the machine can go no further. -/
theorem gives_failHere (h : At ts p s) (hfault : s.point.fault ts[p.now.position]? = fault)
    (hrefused : ∀ t, ts[p.now.position]? = some t → ∀ u, ¬ ParseStep s t u)
    (hend : ts[p.now.position]? = none → s.isComplete = false) :
    Gives ts (failHere ts fault) p post := by
  unfold failHere
  apply gives_bind
  apply gives_peek
  cases ht : ts[p.now.position]? with
  | none =>
      rw [ht] at hfault
      have hparse := h.toReached.parse_eq_atEnd ht (hend ht)
      rw [hfault] at hparse
      exact gives_throw hparse h.holds
  | some t =>
      rw [ht] at hfault
      have hstep := standard_step_of_none (hrefused t ht)
      rw [hfault] at hstep
      exact gives_throw (h.toReached.parse_eq_atToken ht hstep) h.holds

/-- Where the grammar wants something else than a statement, the tokens must not end. -/
theorem isComplete_eq_false (hfault : s.point.fault none = .expected what) :
    s.isComplete = false := by
  obtain ⟨blocks, body, point⟩ := s
  unfold ParseState.isComplete
  have hpoint : (point == .statement) = false := by
    rw [beq_eq_false_iff_ne]
    rintro rfl
    cases hfault
  rw [hpoint]
  exact Bool.and_false _

/-- **The grammar wants a token of one category**, goes on with it, and tells of any other what it
    expected. -/
structure Wants (s : ParseState) (kind : Kind) (what : Expectation) (next : Token → ParseState) :
    Prop where
  step?_eq : ∀ t, Rules.standard.step? s t = Rules.step?.wants Rules.standard t kind (next t)
  fault_eq : ∀ found, s.point.fault found = .expected what

theorem Wants.step {next : Token → ParseState} (h : Wants s kind what next) (hkind : t.kind = kind) :
    ParseStep s t (next t) := by
  apply step?_eq_some_iff.mp
  show Rules.standard.step? s t = some (next t)
  rw [h.step?_eq]
  exact wants_eq_some_iff.mpr ⟨hkind, rfl⟩

theorem Wants.refused {next : Token → ParseState} (h : Wants s kind what next)
    (hkind : t.kind ≠ kind) (u : ParseState) : ¬ ParseStep s t u := by
  intro hstep
  have hsome : Rules.standard.step? s t = some u := step?_eq_some_iff.mpr hstep
  rw [h.step?_eq] at hsome
  exact hkind (wants_eq_some_iff.mp hsome).1

/-! ### Where one category is wanted -/

theorem wants_startArrow : Wants (s.goTo .startArrow) .arrow .startArrow fun _ => s.goTo .startState :=
  ⟨fun _ => rfl, fun _ => rfl⟩

theorem wants_startState : Wants (s.goTo .startState) .state .startState fun t =>
    s.goTo (.semicolon (.start t.value)) :=
  ⟨fun _ => rfl, fun _ => rfl⟩

theorem wants_semicolon {done : Statement} :
    Wants (s.goTo (.semicolon done)) .semicolon done.endExpectation fun _ => s.push done :=
  ⟨fun _ => rfl, fun _ => rfl⟩

theorem wants_listArrow {owner : ListOwner} :
    Wants (s.goTo (.listArrow owner)) .arrow (arrowExpectation owner) fun _ =>
      s.goTo (.listBracket owner) :=
  ⟨fun _ => rfl, fun _ => by cases owner <;> rfl⟩

theorem wants_listBracket {owner : ListOwner} :
    Wants (s.goTo (.listBracket owner)) .leftBracket (listExpectation owner) fun _ =>
      s.goTo (.listState owner []) :=
  ⟨fun _ => rfl, fun _ => by cases owner <;> rfl⟩

theorem wants_machineName : Wants (s.goTo .machineName) .identifier .machineName fun t =>
    s.goTo (.machineBrace t.value) :=
  ⟨fun _ => rfl, fun _ => rfl⟩

theorem wants_machineBrace {name : String} :
    Wants (s.goTo (.machineBrace name)) .leftBrace .machineBrace fun _ =>
      s.openBlock (.machine name) :=
  ⟨fun _ => rfl, fun _ => rfl⟩

theorem wants_stateName : Wants (s.goTo .stateName) .identifier .stateName fun t =>
    s.goTo (.stateArrow t.value) :=
  ⟨fun _ => rfl, fun _ => rfl⟩

theorem wants_stateArrow {name : String} :
    Wants (s.goTo (.stateArrow name)) .arrow .stateArrow fun _ => s.goTo (.stateBrace name) :=
  ⟨fun _ => rfl, fun _ => rfl⟩

theorem wants_stateBrace {name : String} :
    Wants (s.goTo (.stateBrace name)) .leftBrace .stateBrace fun _ => s.openBlock (.state name) :=
  ⟨fun _ => rfl, fun _ => rfl⟩

/-! ### Tokens that are wanted -/

/-- A token that the grammar wants, without a name. -/
theorem gives_expect (h : At ts p s) (hwants : Wants s kind what fun _ => u)
    (hblocks : u.blocks = s.blocks) {post : PUnit → Trail → Prop}
    (hpost : At ts p.advance u → post () p.advance) : Gives ts (expect ts kind what) p post := by
  unfold expect
  apply gives_bind
  apply gives_accepts
  · intro t ht hkind
    exact gives_pure (hpost (h.advance ht (hwants.step hkind) hblocks))
  · intro hother
    exact gives_failHere h (hwants.fault_eq _)
      (fun t ht u => hwants.refused (hother t ht) u)
      (fun _ => isComplete_eq_false (hwants.fault_eq _))

/-- A token of one of some categories, where the machine takes no others. -/
theorem gives_expectOneOf (h : At ts p s) (hfault : ∀ found, s.point.fault found = .expected what)
    (hrefused : ∀ t, ts[p.now.position]? = some t → t.kind ∉ kinds → ∀ u, ¬ ParseStep s t u)
    {post : Token → Trail → Prop}
    (hpost : ∀ t, ts[p.now.position]? = some t → t.kind ∈ kinds → post t p.advance) :
    Gives ts (expectOneOf ts kinds what) p post := by
  unfold expectOneOf
  apply gives_bind
  apply gives_peek
  cases ht : ts[p.now.position]? with
  | none =>
      apply gives_failHere h (hfault _)
      · intro t ht'
        cases ht.symm.trans ht'
      · exact fun _ => isComplete_eq_false (hfault _)
  | some t =>
      apply gives_bind
      apply gives_modify
      by_cases hkind : t.kind ∈ kinds
      · rw [if_pos hkind]
        exact gives_pure (hpost t ht hkind)
      · rw [if_neg hkind]
        have hstep := standard_step_of_none (hrefused t ht hkind)
        rw [hfault] at hstep
        exact gives_throw (h.toReached.parse_eq_atToken ht hstep) (h.holds_advance ht)

/-- A name that the grammar wants. -/
theorem gives_name {next : Token → ParseState} (h : At ts p s) (hwants : Wants s kind what next)
    (hblocks : ∀ t, (next t).blocks = s.blocks) {post : Token → Trail → Prop}
    (hpost : ∀ t, At ts p.advance (next t) → post t p.advance) :
    Gives ts (expectOneOf ts [kind] what) p post := by
  apply gives_expectOneOf h hwants.fault_eq
  · intro t _ hkind u
    exact hwants.refused (mt List.mem_singleton.mpr hkind) u
  · intro t ht hkind
    exact hpost t (h.advance ht (hwants.step (List.mem_singleton.mp hkind)) (hblocks t))

/-- The opening brace of a block, in both of its outcomes. -/
theorem gives_openBlock (h : At ts p s) (hwants : Wants s .leftBrace what fun _ => u)
    (hblocks : u.blocks.length = s.blocks.length + 1) {post : PUnit → Trail → Prop}
    (hpost : At ts p.advance.raise u → post () p.advance.raise) :
    Gives ts (openBlock ts what) p post := by
  unfold openBlock
  apply gives_bind
  apply gives_expectOneOf h hwants.fault_eq
  · intro t _ hkind u
    exact hwants.refused (mt List.mem_singleton.mpr hkind) u
  · intro t ht hkind
    have hstep := standard_step_of_step (hwants.step (List.mem_singleton.mp hkind))
    have hdepth := h.depth_eq
    apply gives_bind
    apply gives_get
    by_cases hdeep : 256 ≤ p.now.depth
    · rw [if_pos (show 256 ≤ p.advance.now.depth from hdeep)]
      rw [if_neg (by omega)] at hstep
      exact gives_throw (h.toReached.parse_eq_atToken ht hstep) (h.holds_advance ht)
    · rw [if_neg (show ¬ 256 ≤ p.advance.now.depth from hdeep)]
      rw [if_pos (by omega)] at hstep
      apply gives_modify
      apply hpost
      apply (h.advance_reached ht hstep).raise
      show p.now.depth + 1 = u.blocks.length
      omega

end Descent

end StateDiagram

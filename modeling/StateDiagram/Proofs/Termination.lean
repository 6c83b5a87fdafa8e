import StateDiagram.Proofs.DescentSteps

/-!
# `Proofs.Termination` — the descent ends

A descent over any tokens ends, with the result of the parse. A loop goes on until it sees what closes
it and never asks whether anything is left, so it does not end because the input does. It ends because
each of its rounds passes a token, and where no token is left some rule in the round fails. So a loop
never needs more fuel than there are tokens left, and one unit more; that goes by induction on the fuel,
for the loops over what blocks hold together with all statements in them.

Each rule reads from one state of the machine to another, passes a token at least, and leaves the depth
as it was. A round of a loop passes a token that no other round passes as its own, so the rounds are
never ahead of the tokens by more than the one that has just begun.

## Contents

* `Descent.Arrives`, `Descent.Gives.after`, `Descent.gives_rule` — what a rule gives;
* `Descent.gives_startRule`, `Descent.gives_listRule` — statements without a block;
* `Descent.ListHead`, `Descent.gives_membersLoop` — the loop over a list;
* `Descent.BodyGives`, `Descent.gives_block`, `Descent.gives_statement` — blocks and statements, if the
  fuel does for the blocks in them;
* `Descent.bodyGives`, `Descent.gives_program` — it does;
* `descend_makes_progress` — all of it.
-/

namespace StateDiagram

/-- Where a token has been passed, less fuel will do. -/
theorem Counters.Passed.fuel_lt {ts : List Token} {c d : Counters} {fuel : Nat} (h : c.Passed d)
    (hle : d.position ≤ ts.length) (hfuel : ts.length - c.position ≤ fuel) :
    ts.length - d.position < fuel := by
  have hlt := h.position_lt
  omega

/-- Where all is closed that was opened, there are as many rules active as blocks open still. -/
theorem Counters.Passed.active_eq_depth {c d : Counters} (h : c.Passed d)
    (hactive : c.active = c.depth) : d.active = d.depth :=
  h.active_eq.trans (hactive.trans h.depth_eq.symm)

namespace Descent

variable {α : Type} {ts : List Token} {t : Token} {s u : ParseState} {p q : Trail}
  {fuel : Nat} {rule : Production} {piece : Descent α} {target : α → ParseState}

/-! ## What a rule gives -/

/-- **Where a rule arrives**: the descent gets to the state of the machine that belongs to the result, and
    passes a token at least. -/
def Arrives (ts : List Token) (p : Trail) (target : α → ParseState) (result : α) (q : Trail) : Prop :=
  At ts q (target result) ∧ p.now.Passed q.now

/-- What has been passed before a piece counts for what follows it. -/
theorem Gives.after (h : Gives ts piece q (Arrives ts q target)) (hpassed : p.now.Passed q.now) :
    Gives ts piece q (Arrives ts p target) :=
  h.mono fun _ _ ⟨hr, hlast⟩ => ⟨hr, hpassed.trans hlast⟩

/-- A rule that is called gives what it reads to its caller. -/
theorem gives_rule (h : At ts p u) (hactive : p.now.active + rule.isBlock.toNat ≤ 257)
    (hpiece : At ts (p.call rule) u → Gives ts piece (p.call rule) (Arrives ts (p.call rule) target)) :
    Gives ts (call rule piece) p (Arrives ts p target) := by
  apply gives_call
  exact (hpiece (h.call hactive)).mono fun result q ⟨hq, hpassed⟩ => hq.back hpassed

/-- A word that a rule follows. -/
theorem gives_word (h : At ts p s) (hpiece : Gives ts piece p.advance (Arrives ts p.advance target)) :
    Gives ts (advance >>= fun _ => piece) p (Arrives ts p target) := by
  apply gives_bind
  apply gives_modify
  exact hpiece.after h.passed

/-! ## Statements without blocks -/

/-- What follows `START`. -/
theorem gives_startRule (h : At ts p (s.goTo .startArrow)) :
    Gives ts (startRule ts) p (Arrives ts p s.push) := by
  unfold startRule
  apply gives_rule h
  · exact h.active_le
  intro hcall
  apply gives_bind
  apply gives_expect hcall wants_startArrow rfl
  intro harrow
  apply gives_bind
  apply gives_name harrow wants_startState (fun _ => rfl)
  intro state hstate
  apply gives_bind
  apply gives_expect hstate wants_semicolon rfl
  intro hend
  exact gives_pure ⟨hend, (hcall.passed.trans harrow.passed).trans hstate.passed⟩

/-! ### Lists -/

variable {owner : ListOwner} {states : List String}

theorem mem_memberKinds {kind : Kind} : kind ∈ memberKinds owner ↔ owner.IsMember kind := by
  cases owner with
  | accept => exact List.mem_singleton
  | transition _ =>
      show kind ∈ [.state, .self] ↔ kind = .state ∨ kind = .self
      simp

/-- Nothing but a name of the list and its closing bracket can stand where a name is wanted. -/
theorem listState_refused (hclose : t.kind ≠ .rightBracket) (hmember : ¬ owner.IsMember t.kind)
    (u : ParseState) : ¬ ParseStep (s.goTo (.listState owner states)) t u := by
  intro hstep
  have hsome := step?_eq_some_iff.mpr hstep
  change (if _ then _ else if _ then _ else none) = some u at hsome
  rw [if_neg (mt unlimited_admits.mp hclose), if_neg (mt admitsMember_iff.mp hmember)] at hsome
  cases hsome

/-- Nothing but a comma and the closing bracket can stand after a name of a list. -/
theorem listSeparator_refused (hclose : t.kind ≠ .rightBracket) (hcomma : t.kind ≠ .comma)
    (u : ParseState) : ¬ ParseStep (s.goTo (.listSeparator owner states)) t u := by
  intro hstep
  have hsome := step?_eq_some_iff.mpr hstep
  change (if _ then _ else if _ then _ else none) = some u at hsome
  rw [if_neg (mt unlimited_admits.mp hcomma), if_neg (mt unlimited_admits.mp hclose)] at hsome
  cases hsome

/-- **The head of the loop over a list**: the machine wants a name, or it stands after one and the
    closing bracket comes next. -/
inductive ListHead (ts : List Token) (p : Trail) (s : ParseState) (owner : ListOwner)
    (states : List String) : Prop where
  | wanting : At ts p (s.goTo (.listState owner states)) → ListHead ts p s owner states
  | closing {t : Token} : At ts p (s.goTo (.listSeparator owner states)) →
      ts[p.now.position]? = some t → t.kind = .rightBracket → ListHead ts p s owner states

/-- The closing bracket ends the list, whichever of the two it is. -/
theorem ListHead.close (h : ListHead ts p s owner states) (ht : ts[p.now.position]? = some t)
    (hkind : t.kind = .rightBracket) :
    At ts p.advance (s.goTo (.semicolon (owner.statement states.reverse))) ∧
      p.now.Passed p.advance.now := by
  cases h with
  | wanting h => exact ⟨h.advance ht (.move (.closeOpen hkind)) rfl, h.passed⟩
  | closing h => exact ⟨h.advance ht (.move (.close hkind)) rfl, h.passed⟩

theorem ListHead.position_le (h : ListHead ts p s owner states) : p.now.position ≤ ts.length := by
  cases h with
  | wanting h => exact h.position_le
  | closing h => exact h.position_le

/-- The end of a round changes nothing there. -/
theorem ListHead.finish {before : Counters} (h : ListHead ts q s owner states)
    (hpassed : before.Passed q.now) : ListHead ts (q.finish before) s owner states := by
  cases h with
  | wanting h => exact .wanting (h.finish hpassed)
  | closing h ht hkind => exact .closing (h.finish hpassed) ht hkind

/-- What follows a name leads back to the head of the loop. -/
theorem gives_separator (h : At ts p (s.goTo (.listSeparator owner states))) :
    Gives ts (separator ts) p fun _ q =>
      ListHead ts q s owner states ∧ ∀ c : Counters, c.Passed p.now → c.Passed q.now := by
  unfold separator
  apply gives_bind
  apply gives_accepts
  · intro t ht hkind
    have hcomma := h.advance ht (.move (.comma hkind)) rfl
    exact gives_pure ⟨.wanting hcomma, fun _ hc => hc.trans h.passed⟩
  · intro hcomma
    show Gives ts (nextIs ts .rightBracket >>= _) p _
    apply gives_bind
    apply gives_nextIs
    · intro t ht hkind
      exact gives_pure ⟨.closing h ht hkind, fun _ hc => hc⟩
    · intro hclose
      show Gives ts (failHere ts (.expected .listSeparator)) p _
      apply gives_failHere h rfl
      · exact fun t ht => listSeparator_refused (hclose t ht) (hcomma t ht)
      · exact fun _ => isComplete_eq_false rfl

/-- **The loop over a list** ends within the fuel that the tokens left need, and has read up to its
    closing bracket. -/
theorem gives_membersLoop (h : ListHead ts p s owner states)
    (hrounds : p.now.rounds ≤ p.now.position) (hfuel : ts.length - p.now.position < fuel) :
    Gives ts (membersLoop ts owner fuel states) p
      (Arrives ts p fun names => s.goTo (.semicolon (owner.statement names))) := by
  induction fuel generalizing p states with
  | zero => exact absurd hfuel (Nat.not_lt_zero _)
  | succ fuel ih =>
  rw [membersLoop]
  apply gives_bind
  apply gives_accepts
  · intro t ht hkind
    exact gives_pure (h.close ht hkind)
  intro hother
  cases h with
  | closing _ ht hkind => exact absurd hkind (hother _ ht)
  | wanting h =>
      have hbegin := h.begin hrounds
      apply gives_bind
      apply gives_round
      apply gives_bind
      apply gives_expectOneOf hbegin (fun _ => rfl)
      · intro t ht hkind
        exact listState_refused (hother t ht) (mt mem_memberKinds.mpr hkind)
      intro t ht hkind
      have hname : At ts p.begin.advance (s.goTo (.listSeparator owner (t.value :: states))) :=
        hbegin.advance ht (.move (.member (mem_memberKinds.mp hkind))) rfl
      apply gives_bind
      apply (gives_separator hname).mono
      rintro - q ⟨hq, hpassed⟩
      have hround := hpassed _ hbegin.passed
      apply gives_pure
      -- The round has passed a token, so that less fuel will do.
      have hless := hround.fuel_lt hq.position_le (Nat.le_of_lt_succ hfuel)
      have hrest := ih (hq.finish hround) hround.rounds_le hless
      exact hrest.after (passed_of_begin hround)

/-- What follows the opening bracket of a list. -/
theorem gives_members (h : At ts p (s.goTo (.listState owner [])))
    (hrounds : p.now.rounds ≤ p.now.position) (hfuel : ts.length - p.now.position < fuel) :
    Gives ts (members ts owner fuel) p
      (Arrives ts p fun names => s.goTo (.semicolon (owner.statement names))) := by
  unfold members
  apply gives_rule h
  · exact h.active_le
  · exact fun hcall => gives_membersLoop (.wanting hcall) hrounds hfuel

/-- What follows `ACCEPT` or the label of a transition. -/
theorem gives_listRule (h : At ts p (s.goTo (.listArrow owner)))
    (hfuel : ts.length - p.now.position ≤ fuel) :
    Gives ts (listRule ts owner fuel) p (Arrives ts p s.push) := by
  unfold listRule
  apply gives_rule h
  · rw [show owner.production.isBlock = false by cases owner <;> rfl]
    exact h.active_le
  intro hcall
  apply gives_bind
  apply gives_expect hcall wants_listArrow rfl
  intro harrow
  apply gives_bind
  apply gives_expect harrow wants_listBracket rfl
  intro hbracket
  have hopened := hcall.passed.trans harrow.passed
  have hless := hopened.fuel_lt hbracket.position_le hfuel
  apply gives_bind
  apply (gives_members hbracket hopened.rounds_le hless).mono
  rintro names q ⟨hq, hlist⟩
  apply gives_bind
  apply gives_expect hq wants_semicolon rfl
  intro hend
  exact gives_pure ⟨hend, (hopened.trans hlist).trans hq.passed⟩

/-! ## Blocks -/

/-- **What the loop over a block gives** on some fuel, if that does for the tokens left: it ends, and
    has read up to the closing brace; the depth is still that within the block. -/
def BodyGives (ts : List Token) (fuel : Nat) : Prop :=
  ∀ (p : Trail) (s : ParseState) (head : BlockHead) (body : List Statement),
    At ts p ⟨⟨head, s.body⟩ :: s.blocks, body, .statement⟩ →
    p.now.active = p.now.depth → p.now.rounds ≤ p.now.position →
    ts.length - p.now.position < fuel →
    Gives ts (bodyLoop ts head fuel body) p fun ss q =>
      Reached ts q (s.goTo (.semicolon (head.statement ss))) ∧ p.now.Passed q.now

/-- A block, from its opening brace to its semicolon. -/
theorem gives_block {point : Point} {head : BlockHead} {brace : Expectation}
    (h : At ts p (s.goTo point))
    (hbrace : Wants (s.goTo point) .leftBrace brace fun _ => s.openBlock head)
    (hactive : p.now.active = p.now.depth + 1) (hbody : BodyGives ts fuel)
    (hfuel : ts.length - p.now.position ≤ fuel) :
    Gives ts (block ts brace head fuel) p (Arrives ts p s.push) := by
  rw [block]
  apply gives_bind
  apply gives_openBlock h hbrace rfl
  intro hopen
  apply gives_bind
  have hless := h.passed.fuel_lt hopen.position_le hfuel
  apply (hbody p.advance.raise s head [] hopen hactive h.rounds_le hless).mono
  rintro ss q ⟨hq, hpassed⟩
  have hdepth : q.now.depth = s.blocks.length + 1 := hpassed.depth_eq.trans hopen.depth_eq
  have hlower := hq.lower hdepth
  apply gives_bind
  apply gives_modify
  apply gives_bind
  apply gives_expect hlower wants_semicolon rfl
  intro hend
  apply gives_pure
  have hback : p.now.Passed q.lower.now := by
    refine ⟨Nat.lt_of_succ_lt hpassed.position_lt, ?_, hpassed.active_eq, hpassed.rounds_le⟩
    exact hlower.depth_eq.trans h.depth_eq.symm
  exact ⟨hend, hback.trans hlower.passed⟩

/-- There is room for one rule for a block more than there are blocks. -/
theorem At.active_lt (h : At ts p s) (hactive : p.now.active = p.now.depth) :
    p.now.active + 1 ≤ 257 := by
  have hle := h.toReached.blocks_length_le
  have hdepth := h.depth_eq
  omega

/-- What follows `def`. -/
theorem gives_machineRule (h : At ts p (s.goTo .machineName)) (hactive : p.now.active = p.now.depth)
    (hbody : BodyGives ts fuel) (hfuel : ts.length - p.now.position ≤ fuel) :
    Gives ts (machineRule ts fuel) p (Arrives ts p s.push) := by
  rw [machineRule]
  apply gives_rule h
  · exact h.active_lt hactive
  intro hcall
  apply gives_bind
  apply gives_name hcall wants_machineName (fun _ => rfl)
  intro name hname
  have hless := hcall.passed.fuel_lt hname.position_le hfuel
  have hblock := gives_block hname wants_machineBrace (congrArg Nat.succ hactive) hbody
    (Nat.le_of_lt hless)
  exact hblock.after hcall.passed

/-- What follows `STATE`. -/
theorem gives_stateRule (h : At ts p (s.goTo .stateName)) (hactive : p.now.active = p.now.depth)
    (hbody : BodyGives ts fuel) (hfuel : ts.length - p.now.position ≤ fuel) :
    Gives ts (stateRule ts fuel) p (Arrives ts p s.push) := by
  rw [stateRule]
  apply gives_rule h
  · exact h.active_lt hactive
  intro hcall
  apply gives_bind
  apply gives_name hcall wants_stateName (fun _ => rfl)
  intro name hname
  apply gives_bind
  apply gives_expect hname wants_stateArrow rfl
  intro harrow
  have hpassed := hcall.passed.trans hname.passed
  have hless := hpassed.fuel_lt harrow.position_le hfuel
  have hblock := gives_block harrow wants_stateBrace (congrArg Nat.succ hactive) hbody
    (Nat.le_of_lt hless)
  exact hblock.after hpassed

/-! ## Statements -/

variable {blocks : List Block} {body : List Statement} {head : BlockHead}

/-- **A statement** is read where a token can only start one, if the fuel does for the blocks in it. -/
theorem gives_statement (h : At ts p ⟨blocks, body, .statement⟩)
    (hactive : p.now.active = p.now.depth)
    (hstart : ∀ t, ts[p.now.position]? = some t →
      Rules.standard.step? ⟨blocks, body, .statement⟩ t =
        ParseState.start? ⟨blocks, body, .statement⟩ t)
    (hend : ts[p.now.position]? = none → blocks ≠ [])
    (hbody : BodyGives ts fuel) (hfuel : ts.length - p.now.position ≤ fuel) :
    Gives ts (statement ts fuel) p (Arrives ts p fun done => ⟨blocks, done :: body, .statement⟩) := by
  rw [statement]
  apply gives_rule h
  · exact h.active_le
  intro hcall
  apply gives_bind
  apply gives_peek
  cases ht : ts[(p.call .statement).now.position]? with
  | none =>
      apply gives_failHere hcall
      · rw [ht]
        rfl
      · intro t ht'
        cases ht.symm.trans ht'
      · intro _
        show (blocks.isEmpty && _) = false
        rw [List.isEmpty_eq_false_iff.mpr (hend ht)]
        rfl
  | some t =>
      -- The fuel still does past the token, whatever follows it.
      have hrest : ts.length - (p.now.position + 1) ≤ fuel := by omega
      dsimp only
      cases hkind : t.kind with
      | beginMark =>
          apply gives_bind
          apply gives_modify
          exact gives_pure ⟨hcall.advance ht (.beginMark rfl hkind) rfl, hcall.passed⟩
      | endMark =>
          apply gives_bind
          apply gives_modify
          exact gives_pure ⟨hcall.advance ht (.endMark rfl hkind) rfl, hcall.passed⟩
      | machine =>
          have hword := hcall.advance ht (.move (.machineWord hkind)) rfl
          exact gives_word hcall (gives_machineRule hword hactive hbody hrest)
      | stateDef =>
          have hword := hcall.advance ht (.move (.stateWord hkind)) rfl
          exact gives_word hcall (gives_stateRule hword hactive hbody hrest)
      | start =>
          have hword := hcall.advance ht (.move (.startWord hkind)) rfl
          exact gives_word hcall (gives_startRule hword)
      | accept =>
          have hword := hcall.advance ht (.move (.acceptWord hkind)) rfl
          exact gives_word hcall (gives_listRule hword hrest)
      | _ =>
          have hnone : Rules.standard.step? ⟨blocks, body, .statement⟩ t = none := by
            rw [hstart t ht, ParseState.start?, hkind]
          have hstep : Rules.standard.step ⟨blocks, body, .statement⟩ t =
              .error (.atToken (.unexpectedToken t.value) t) := by
            rw [Rules.step, hnone]
            rfl
          exact gives_throw (hcall.toReached.parse_eq_atToken ht hstep) hcall.holds

/-- One thing that a block may hold is read where the block does not end. -/
theorem gives_item (h : At ts p ⟨⟨head, s.body⟩ :: s.blocks, body, .statement⟩)
    (hactive : p.now.active = p.now.depth)
    (hopen : ∀ t, ts[p.now.position]? = some t → t.kind ≠ .rightBrace)
    (hbody : BodyGives ts fuel) (hfuel : ts.length - p.now.position ≤ fuel) :
    Gives ts (item ts head fuel) p
      (Arrives ts p fun done => ⟨⟨head, s.body⟩ :: s.blocks, done :: body, .statement⟩) := by
  rw [item]
  apply gives_bind
  apply gives_peek
  cases ht : ts[p.now.position]? with
  | none =>
      apply gives_statement h hactive _ (fun _ => List.cons_ne_nil _ _) hbody hfuel
      intro t ht'
      cases ht.symm.trans ht'
  | some t =>
      dsimp only
      split
      next hlabel =>
        obtain ⟨hin, hkind⟩ := Bool.and_eq_true_iff.mp hlabel
        have hword := h.advance ht (.move (.label hin (beq_iff_eq.mp hkind))) rfl
        have hless := h.passed.fuel_lt hword.position_le hfuel
        exact gives_word h (gives_listRule hword (Nat.le_of_lt hless))
      next hlabel =>
        apply gives_statement h hactive _ (fun _ => List.cons_ne_nil _ _) hbody hfuel
        intro t' ht'
        cases ht.symm.trans ht'
        have hclose : ¬ Rules.standard.admits .rightBrace t.kind = true :=
          mt unlimited_admits.mp (hopen t ht)
        have hlabel' : ¬ (head.allowsTransitions &&
            Rules.standard.admits .identifier t.kind) = true := by
          intro hadmits
          obtain ⟨hin, hkind⟩ := Bool.and_eq_true_iff.mp hadmits
          exact hlabel (Bool.and_eq_true_iff.mpr ⟨hin, beq_iff_eq.mpr (unlimited_admits.mp hkind)⟩)
        exact (if_neg hclose).trans (if_neg hlabel')

/-! ## Loops over statements -/

/-- **The loop over a block** ends, on any fuel that does. -/
theorem bodyGives (ts : List Token) (fuel : Nat) : BodyGives ts fuel := by
  -- Blocks within the block are read on less fuel, and so is each further round.
  induction fuel with
  | zero => exact fun p s head body h hactive hrounds hfuel => absurd hfuel (Nat.not_lt_zero _)
  | succ fuel ih =>
  intro p s head body h hactive hrounds hfuel
  have hle : ts.length - p.now.position ≤ fuel := Nat.le_of_lt_succ hfuel
  rw [bodyLoop]
  apply gives_bind
  apply gives_accepts
  · intro t ht hkind
    have hstep := @ParseStep.closeBlock ⟨⟨head, s.body⟩ :: s.blocks, body, .statement⟩ t
      ⟨head, s.body⟩ s.blocks rfl rfl hkind
    have hblocks : s.blocks.length ≤ 256 := Nat.le_of_succ_le h.toReached.blocks_length_le
    have hclose := standard_step_eq_ok_iff.mpr ⟨hstep, hblocks⟩
    exact gives_pure ⟨h.advance_reached ht hclose, h.passed⟩
  intro hopen
  have hbegin := h.begin hrounds
  apply gives_bind
  apply gives_round
  apply (gives_item hbegin hactive hopen ih hle).mono
  rintro done q ⟨hq, hround⟩
  have hpassed := passed_of_begin hround
  have hless := hpassed.fuel_lt hq.position_le hle
  have hrest := ih (q.finish p.begin.now) s head (done :: body) (hq.finish hround)
    (hpassed.active_eq_depth hactive) hpassed.rounds_le hless
  apply hrest.mono
  rintro ss r ⟨hr, hlast⟩
  exact ⟨hr, hpassed.trans hlast⟩

/-- **The loop over the whole program** ends with the result of the parse, on any fuel that does. -/
theorem gives_program (h : At ts p ⟨[], body, .statement⟩) (hactive : p.now.active = p.now.depth)
    (hrounds : p.now.rounds ≤ p.now.position) (hfuel : ts.length - p.now.position < fuel) :
    Gives ts (program ts fuel body) p fun ss q => parse ts = .ok ss ∧ q.Holds ts := by
  induction fuel generalizing p body with
  | zero => exact absurd hfuel (Nat.not_lt_zero _)
  | succ fuel ih =>
  have hle : ts.length - p.now.position ≤ fuel := Nat.le_of_lt_succ hfuel
  rw [program]
  apply gives_bind
  apply gives_peek
  cases ht : ts[p.now.position]? with
  | none =>
      apply gives_pure
      refine ⟨?_, h.holds⟩
      unfold parse Rules.parse
      rw [h.toReached.run_all ht]
      rfl
  | some t =>
      have hbegin := h.begin hrounds
      have hstatement := gives_statement hbegin hactive (fun _ _ => rfl)
        (fun hnone => absurd (ht.symm.trans hnone) (Option.some_ne_none t)) (bodyGives ts fuel) hle
      apply gives_bind
      apply gives_round
      apply hstatement.mono
      rintro done q ⟨hq, hround⟩
      have hpassed := passed_of_begin hround
      have hless := hpassed.fuel_lt hq.position_le hle
      exact ih (hq.finish hround) (hpassed.active_eq_depth hactive) hpassed.rounds_le hless

/-- Before the first token. -/
theorem at_initial (ts : List Token) : At ts .initial .initial :=
  ⟨⟨Nat.zero_le _, rfl, Nat.zero_le _, Nat.zero_le _, rfl, nofun⟩, rfl⟩

end Descent

/-- **The descent ends and makes progress.** Over any tokens one unit of fuel more than there are tokens
    will do, and so will more fuel: the descent ends, with what parsing gives. It has then begun no more
    rounds of loops than there are tokens, and one more. At each of its moments, and at its end, no more
    tokens have been read than there are, the depth is the number of blocks open and at most 256, and at
    most 257 rules for blocks are active. The depth shrinks only where it is not zero. A rule that
    returns and a round that is over have read a token at least, and leave the depth as they found it. -/
theorem descend_makes_progress (ts : List Token) (extra : Nat) :
    ∃ p, descend (ts.length + 1 + extra) ts = some (parse ts, p) ∧
      p.now.rounds ≤ ts.length + 1 ∧ p.Holds ts := by
  have hfuel : ts.length - 0 < ts.length + 1 + extra := by omega
  have hgives := Descent.gives_program (Descent.at_initial ts) rfl (Nat.le_refl 0) hfuel
  unfold Descent.Gives at hgives
  unfold descend
  cases hrun : (Descent.program ts (ts.length + 1 + extra) []).run.run .initial with
  | none =>
      rw [hrun] at hgives
      exact hgives.elim
  | some out =>
      rw [hrun] at hgives
      obtain ⟨e | program, p⟩ := out
      · obtain ⟨hparse, hholds⟩ := hgives
        exact ⟨p, by rw [hparse], hholds.rounds_le, hholds⟩
      · obtain ⟨hparse, hholds⟩ := hgives
        exact ⟨p, by rw [hparse], hholds.rounds_le, hholds⟩

end StateDiagram

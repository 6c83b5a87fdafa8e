import StateDiagram.Proofs.Machine

/-!
# `Proofs.Reading` — the machine reads the grammar

Without a nesting limit the machine accepts exactly the programs of the grammar, and returns the
program that the grammar derives.

One direction walks a derivation: from any state between two statements, the tokens of a phrase lead
to the same state with the phrase added. The other walks a run: whatever has been read splits, along
the stack of open blocks, into heads of blocks, complete statements, and the beginning of the
statement at hand. No state is a dead end, so what has been read can always be completed.

## Contents

* `ParseState.add`, `Derives.runs` — the machine reads every phrase of the grammar;
* `Pending`, `Enclosed`, `Reads` — what has been read when the machine is in a state;
* `ParseStep.reads`, `Runs.reads` — a step keeps it, and so does a run;
* `unlimited_parse_eq_ok_iff` — acceptance without a limit is derivability;
* `completable` — every state can be led to a complete program;
* `Runs.viable`, `Viable.exists_runs` — the machine reads exactly the beginnings of programs.
-/

namespace StateDiagram

variable {inState : Bool} {blocks : List Block} {body : List Statement} {ts us : List Token}

/-! ## From a derivation to a run -/

/-- The state between two statements after a phrase more. -/
def ParseState.add (blocks : List Block) (body : List Statement) : Phrase → ParseState
  | .one s => ⟨blocks, s :: body, .statement⟩
  | .many ss => ⟨blocks, ss.reverse ++ body, .statement⟩

/-- The names of a list are read one by one. -/
theorem Elements.runs {owner : ListOwner} {names : List String}
    (h : Elements owner.IsMember ts names) (states : List String) :
    Runs ⟨blocks, body, .listState owner states⟩ ts
      ⟨blocks, body, .listSeparator owner (names.reverse ++ states)⟩ := by
  induction h generalizing states with
  | last ht => exact .cons (.move (.member ht)) .nil
  | more ht hc _ ih =>
      rw [List.reverse_cons, List.append_assoc]
      exact .cons (.move (.member ht)) (.cons (.move (.comma hc)) (ih _))

/-- A whole list, from its first name to the bracket that ends it. -/
theorem Members.runs {owner : ListOwner} {names : List String} {r : Token}
    (h : Members owner.IsMember ts names) (hr : r.kind = .rightBracket) :
    Runs ⟨blocks, body, .listState owner []⟩ (ts ++ [r])
      ⟨blocks, body, .semicolon (owner.statement names)⟩ := by
  cases h with
  | empty => exact .cons (.move (.closeOpen hr)) .nil
  | plain he =>
      have hnames : Runs ⟨blocks, body, .listState owner []⟩ _ _ := he.runs []
      have hclose := hnames.snoc (.move (.close hr))
      rw [List.append_nil, List.reverse_reverse] at hclose
      exact hclose
  | trailing he hc =>
      have hnames : Runs ⟨blocks, body, .listState owner []⟩ _ _ := he.runs []
      have hclose := (hnames.snoc (.move (.comma hc))).snoc (.move (.closeOpen hr))
      rw [List.append_nil, List.reverse_reverse] at hclose
      exact hclose

/-- The end of a block, once what it holds has been read. -/
theorem runs_block {head : BlockHead} {ss : List Statement} {r e : Token}
    (h : Runs ⟨⟨head, body⟩ :: blocks, [], .statement⟩ ts
      (.add (⟨head, body⟩ :: blocks) [] (.many ss)))
    (hr : r.kind = .rightBrace) (he : e.kind = .semicolon) :
    Runs ⟨⟨head, body⟩ :: blocks, [], .statement⟩ (ts ++ [r, e])
      (.add blocks body (.one (head.statement ss))) := by
  have hclose : ParseStep (.add (⟨head, body⟩ :: blocks) [] (.many ss)) r
      ⟨blocks, body, .semicolon (head.statement (ss.reverse ++ []).reverse)⟩ :=
    @ParseStep.closeBlock _ _ ⟨head, body⟩ blocks rfl rfl hr
  rw [List.append_nil, List.reverse_reverse] at hclose
  exact h.append (.cons hclose (.cons (.finish rfl he) .nil))

/-- **The machine reads every phrase of the grammar**, in any block that the phrase may stand in. -/
theorem Derives.runs {phrase : Phrase} (h : Derives inState phrase ts) :
    ∀ blocks body, (inState = true → inStateBlock blocks = true) →
      Runs ⟨blocks, body, .statement⟩ ts (.add blocks body phrase) := by
  -- Induction on the derivation, for all stacks: a body is read with one more block on the stack.
  induction h with
  | beginMark hk =>
      intro blocks body _
      exact .cons (.beginMark rfl hk) .nil
  | endMark hk =>
      intro blocks body _
      exact .cons (.endMark rfl hk) .nil
  | @machine _ kw name l r e ss ts hkw hname hl _ hr he ih =>
      intro blocks body _
      have hbody := ih (⟨.machine name.value, body⟩ :: blocks) [] (fun h => nomatch h)
      exact .cons (.move (.machineWord hkw)) (.cons (.move (.machineName hname))
        (.cons (.openBlock .machine hl) (runs_block hbody hr he)))
  | @stateDef _ kw name a l r e ss ts hkw hname ha hl _ hr he ih =>
      intro blocks body _
      have hbody := ih (⟨.state name.value, body⟩ :: blocks) [] (fun _ => rfl)
      exact .cons (.move (.stateWord hkw)) (.cons (.move (.stateName hname))
        (.cons (.move (.stateArrow ha)) (.cons (.openBlock .state hl) (runs_block hbody hr he))))
  | start hkw ha hname he =>
      intro blocks body _
      exact .cons (.move (.startWord hkw)) (.cons (.move (.startArrow ha))
        (.cons (.move (.startState hname)) (.cons (.finish rfl he) .nil)))
  | @accept _ kw a l r e ts states hkw ha hl hts hr he =>
      intro blocks body _
      have hlist : Runs ⟨blocks, body, .listState .accept []⟩ _ _ := Members.runs hts hr
      have hend := hlist.snoc (.finish rfl he)
      rw [List.append_assoc] at hend
      exact .cons (.move (.acceptWord hkw)) (.cons (.move (.listArrow ha))
        (.cons (.move (.listBracket hl)) hend))
  | @transition name a l r e ts targets hname ha hl hts hr he =>
      intro blocks body hin
      have hlist : Runs ⟨blocks, body, .listState (.transition name.value) []⟩ _ _ :=
        Members.runs hts hr
      have hend := hlist.snoc (.finish rfl he)
      rw [List.append_assoc] at hend
      exact .cons (.move (.label (hin rfl) hname)) (.cons (.move (.listArrow ha))
        (.cons (.move (.listBracket hl)) hend))
  | nil =>
      intro blocks body _
      exact .nil
  | @cons _ s ss ts us _ _ ih ih' =>
      intro blocks body hin
      have hss := ih' blocks (s :: body) hin
      have hadd : ParseState.add blocks (s :: body) (.many ss) =
          .add blocks body (.many (s :: ss)) := by
        simp [ParseState.add]
      rw [hadd] at hss
      exact (ih blocks body hin).append hss

/-! ## From a run to a derivation -/

/-- The token that a list's statement starts with. -/
def ListOwner.StartsWith (inState : Bool) (kw : Token) : ListOwner → Prop
  | accept => kw.kind = .accept
  | transition label => inState = true ∧ kw.kind = .identifier ∧ kw.value = label

/-- **The beginning of a statement**: what has been read of it at each point of the grammar. -/
inductive Pending (inState : Bool) : Point → List Token → Prop where
  | statement : Pending inState .statement []
  | machineName {kw : Token} : kw.kind = .machine → Pending inState .machineName [kw]
  | machineBrace {kw name : Token} : kw.kind = .machine → name.kind = .identifier →
      Pending inState (.machineBrace name.value) [kw, name]
  | stateName {kw : Token} : kw.kind = .stateDef → Pending inState .stateName [kw]
  | stateArrow {kw name : Token} : kw.kind = .stateDef → name.kind = .identifier →
      Pending inState (.stateArrow name.value) [kw, name]
  | stateBrace {kw name a : Token} : kw.kind = .stateDef → name.kind = .identifier →
      a.kind = .arrow → Pending inState (.stateBrace name.value) [kw, name, a]
  | startArrow {kw : Token} : kw.kind = .start → Pending inState .startArrow [kw]
  | startState {kw a : Token} : kw.kind = .start → a.kind = .arrow →
      Pending inState .startState [kw, a]
  | listArrow {kw : Token} {owner : ListOwner} : owner.StartsWith inState kw →
      Pending inState (.listArrow owner) [kw]
  | listBracket {kw a : Token} {owner : ListOwner} : owner.StartsWith inState kw →
      a.kind = .arrow → Pending inState (.listBracket owner) [kw, a]
  | listFirst {kw a l : Token} {owner : ListOwner} : owner.StartsWith inState kw →
      a.kind = .arrow → l.kind = .leftBracket → Pending inState (.listState owner []) [kw, a, l]
  | listNext {kw a l c : Token} {ts : List Token} {owner : ListOwner} {states : List String} :
      owner.StartsWith inState kw → a.kind = .arrow → l.kind = .leftBracket →
      Elements owner.IsMember ts states.reverse → c.kind = .comma →
        Pending inState (.listState owner states) (kw :: a :: l :: (ts ++ [c]))
  | listSeparator {kw a l : Token} {ts : List Token} {owner : ListOwner} {states : List String} :
      owner.StartsWith inState kw → a.kind = .arrow → l.kind = .leftBracket →
      Elements owner.IsMember ts states.reverse →
        Pending inState (.listSeparator owner states) (kw :: a :: l :: ts)
  | semicolon {done : Statement} {ts : List Token} :
      (∀ e : Token, e.kind = .semicolon → Derives inState (.one done) (ts ++ [e])) →
        Pending inState (.semicolon done) ts

/-- A list and its bracket want nothing more than a semicolon. -/
theorem pending_of_members {kw a l r : Token} {owner : ListOwner} {names : List String}
    (hkw : owner.StartsWith inState kw) (ha : a.kind = .arrow) (hl : l.kind = .leftBracket)
    (h : Members owner.IsMember ts names) (hr : r.kind = .rightBracket) :
    Pending inState (.semicolon (owner.statement names)) (kw :: a :: l :: (ts ++ [r])) := by
  apply Pending.semicolon
  intro e he
  have hsplit : kw :: a :: l :: (ts ++ [r]) ++ [e] = kw :: a :: l :: (ts ++ [r, e]) := by simp
  rw [hsplit]
  cases owner with
  | accept => exact .accept hkw ha hl h hr he
  | transition label =>
      obtain ⟨rfl, hname, rfl⟩ := hkw
      exact .transition hname ha hl h hr he

/-- A token within a statement adds to what has been read of the statement. -/
theorem Moves.pending {t : Token} {p q : Point} (hmove : Moves inState p t q)
    (h : Pending inState p ts) : Pending inState q (ts ++ [t]) := by
  -- The move fixes the point before it, and the point what is pending there.
  cases hmove with
  | machineWord hk =>
      cases h
      exact .machineName hk
  | stateWord hk =>
      cases h
      exact .stateName hk
  | startWord hk =>
      cases h
      exact .startArrow hk
  | acceptWord hk =>
      cases h
      exact .listArrow hk
  | label hin hk =>
      cases h
      exact .listArrow ⟨hin, hk, rfl⟩
  | machineName hk =>
      cases h with
      | machineName hkw => exact .machineBrace hkw hk
  | stateName hk =>
      cases h with
      | stateName hkw => exact .stateArrow hkw hk
  | stateArrow hk =>
      cases h with
      | stateArrow hkw hname => exact .stateBrace hkw hname hk
  | startArrow hk =>
      cases h with
      | startArrow hkw => exact .startState hkw hk
  | startState hk =>
      cases h with
      | startState hkw ha => exact .semicolon fun e he => .start hkw ha hk he
  | listArrow hk =>
      cases h with
      | listArrow hkw => exact .listBracket hkw hk
  | listBracket hk =>
      cases h with
      | listBracket hkw ha => exact .listFirst hkw ha hk
  | member hm =>
      cases h with
      | listFirst hkw ha hl => exact .listSeparator hkw ha hl (.last hm)
      | @listNext kw a l c ts _ states hkw ha hl he hc =>
          -- The machine keeps the names read last first, the grammar in their order.
          have hsnoc := he.snoc hc hm
          rw [← List.reverse_cons] at hsnoc
          rw [List.cons_append, List.cons_append, List.cons_append, List.append_assoc]
          exact .listSeparator hkw ha hl hsnoc
  | comma hk =>
      cases h with
      | listSeparator hkw ha hl he => exact .listNext hkw ha hl he hk
  | closeOpen hk =>
      cases h with
      | listFirst hkw ha hl => exact pending_of_members hkw ha hl .empty hk
      | listNext hkw ha hl he hc => exact pending_of_members hkw ha hl (.trailing he hc) hk
  | close hk =>
      cases h with
      | listSeparator hkw ha hl he => exact pending_of_members hkw ha hl (.plain he) hk

/-- The tokens that a block starts with, up to its opening brace. -/
inductive Headed : BlockHead → List Token → Prop where
  | machine {kw name l : Token} : kw.kind = .machine → name.kind = .identifier →
      l.kind = .leftBrace → Headed (.machine name.value) [kw, name, l]
  | state {kw name a l : Token} : kw.kind = .stateDef → name.kind = .identifier →
      a.kind = .arrow → l.kind = .leftBrace → Headed (.state name.value) [kw, name, a, l]

/-- A block that has been read up to its closing brace wants a semicolon. -/
theorem Headed.pending {head : BlockHead} {hs : List Token} {r : Token} (h : Headed head hs)
    (hbody : Derives head.allowsTransitions (.many body) ts) (hr : r.kind = .rightBrace) :
    Pending inState (.semicolon (head.statement body)) (hs ++ ts ++ [r]) := by
  apply Pending.semicolon
  intro e he
  have hsplit : hs ++ ts ++ [r] ++ [e] = hs ++ (ts ++ [r, e]) := by simp
  rw [hsplit]
  cases h with
  | machine hkw hname hl => exact .machine hkw hname hl hbody hr he
  | state hkw hname ha hl => exact .stateDef hkw hname ha hl hbody hr he

/-- **The tokens before the innermost block's body**, along the stack of open blocks: for each of
    them, the statements before it and its head. -/
inductive Enclosed : List Block → List Token → Prop where
  | nil : Enclosed [] []
  | cons {b : Block} {bs : List Block} {ts us hs : List Token} :
      Enclosed bs ts → Derives (inStateBlock bs) (.many b.before.reverse) us → Headed b.head hs →
        Enclosed (b :: bs) (ts ++ us ++ hs)

/-- **What has been read** when the machine is in a state. -/
inductive Reads (s : ParseState) : List Token → Prop where
  | mk {ts us vs : List Token} :
      Enclosed s.blocks ts → Derives (inStateBlock s.blocks) (.many s.body.reverse) us →
      Pending (inStateBlock s.blocks) s.point vs → Reads s (ts ++ us ++ vs)

variable {s u s' : ParseState} {t : Token}

/-- A complete statement joins those before it. -/
theorem reads_push {vs : List Token} {done : Statement} (hblocks : Enclosed s.blocks ts)
    (hbody : Derives (inStateBlock s.blocks) (.many s.body.reverse) us)
    (hdone : Derives (inStateBlock s.blocks) (.one done) vs) :
    Reads (s.push done) (ts ++ us ++ vs) := by
  have hsnoc := hbody.snoc hdone
  rw [← List.reverse_cons] at hsnoc
  have hreads : Reads (s.push done) (ts ++ (us ++ vs) ++ []) := .mk hblocks hsnoc .statement
  rw [List.append_nil, ← List.append_assoc] at hreads
  exact hreads

/-- The opening brace of a block completes its head. -/
theorem BeforeBrace.headed {p : Point} {head : BlockHead} (hp : BeforeBrace p head)
    (h : Pending inState p ts) (ht : t.kind = .leftBrace) : Headed head (ts ++ [t]) := by
  cases hp with
  | machine =>
      cases h with
      | machineBrace hkw hname => exact .machine hkw hname ht
  | state =>
      cases h with
      | stateBrace hkw hname ha => exact .state hkw hname ha ht

/-- **A step keeps what has been read**, and adds its token. -/
theorem ParseStep.reads (hstep : ParseStep s t s') (h : Reads s ts) : Reads s' (ts ++ [t]) := by
  -- Only the last of the three parts grows, except where a statement or a block is complete.
  obtain ⟨hblocks, hbody, hpending⟩ := h
  rw [List.append_assoc]
  cases hstep with
  | move hmove => exact .mk hblocks hbody (hmove.pending hpending)
  | beginMark hp ht =>
      rw [hp] at hpending
      cases hpending
      exact reads_push hblocks hbody (.beginMark ht)
  | endMark hp ht =>
      rw [hp] at hpending
      cases hpending
      exact reads_push hblocks hbody (.endMark ht)
  | finish hp ht =>
      rw [hp] at hpending
      cases hpending with
      | semicolon hdone => exact reads_push hblocks hbody (hdone t ht)
  | openBlock hp ht =>
      have henclosed := Enclosed.cons (b := ⟨_, s.body⟩) hblocks hbody (hp.headed hpending ht)
      have hreads : Reads (s.openBlock _) (_ ++ [] ++ []) := .mk henclosed .nil .statement
      rw [List.append_nil, List.append_nil] at hreads
      exact hreads
  | closeBlock hb hp ht =>
      rw [hp] at hpending
      cases hpending
      rw [hb] at hblocks hbody
      cases hblocks with
      | @cons _ _ ts₀ us₀ hs hblocks hbefore hhead =>
          -- The block is pending as a statement of the one around it, after those before it.
          have hreads := Reads.mk (s := ⟨_, _, .semicolon _⟩) hblocks hbefore
            (hhead.pending hbody ht)
          simpa using hreads

/-- **A run keeps what has been read**, and adds its tokens. -/
theorem Runs.reads (hrun : Runs s us s') (h : Reads s ts) : Reads s' (ts ++ us) := by
  induction hrun generalizing ts with
  | nil =>
      rw [List.append_nil]
      exact h
  | @cons s u s' t us hstep _ ih =>
      have hreads := ih (hstep.reads h)
      rw [List.append_assoc] at hreads
      exact hreads

/-- Nothing has been read at the start. -/
theorem reads_initial : Reads .initial [] :=
  @Reads.mk .initial [] [] [] .nil .nil .statement

/-! ## Acceptance -/

/-- Between two statements, with no block open and the given program read. -/
def ParseState.complete (program : List Statement) : ParseState :=
  ⟨[], program.reverse, .statement⟩

theorem finish_eq_ok_iff {program : List Statement} :
    s.finish ts = .ok program ↔ s = .complete program := by
  obtain ⟨blocks, body, point⟩ := s
  unfold ParseState.finish
  cases hc : ParseState.isComplete ⟨blocks, body, point⟩ with
  | true =>
      simp only [ParseState.isComplete, Bool.and_eq_true, List.isEmpty_iff, beq_iff_eq] at hc
      obtain ⟨rfl, rfl⟩ := hc
      rw [if_pos rfl]
      constructor
      · intro h
        rw [ParseState.complete, ← Except.ok.inj h, List.reverse_reverse]
      · intro h
        simp only [ParseState.complete, ParseState.mk.injEq, true_and, and_true] at h
        rw [h, List.reverse_reverse]
  | false =>
      rw [if_neg (by simp)]
      constructor
      · intro h
        exact nomatch h
      · intro h
        rw [h] at hc
        exact nomatch hc

/-- The machine ends with a program exactly if the grammar derives the program. -/
theorem runs_complete_iff {program : List Statement} :
    Runs .initial ts (.complete program) ↔ IsProgram program ts := by
  constructor
  · intro h
    have hreads : Reads (.complete program) ts := h.reads reads_initial
    -- No block is open and nothing is pending, so the statements read are all there is.
    obtain ⟨hblocks, hbody, hpending⟩ := hreads
    cases hblocks
    cases hpending
    rw [ParseState.complete, List.reverse_reverse] at hbody
    rw [List.nil_append, List.append_nil]
    exact hbody
  · intro h
    have hrun := h.runs [] [] (fun h => nomatch h)
    rw [ParseState.add, List.append_nil] at hrun
    exact hrun

/-- **Acceptance without a nesting limit is derivability.** -/
theorem unlimited_parse_eq_ok_iff {program : List Statement} :
    Rules.unlimited.parse ts = .ok program ↔ IsProgram program ts := by
  rw [← runs_complete_iff, ← run_eq_ok_iff]
  unfold Rules.parse
  cases Rules.unlimited.run .initial ts with
  | error e => exact ⟨nofun, nofun⟩
  | ok s =>
      show s.finish ts = .ok program ↔ _
      rw [finish_eq_ok_iff, Except.ok.injEq]

/-! ## No state is a dead end -/

/-- A token of a category, with no text of its own. -/
def Token.blank (kind : Kind) : Token := ⟨kind, "", .origin⟩

/-- Some tokens lead to a complete program. -/
def Completable (s : ParseState) : Prop :=
  ∃ us program, Runs s us (.complete program)

theorem Completable.of_step (hstep : ParseStep s t u) (h : Completable u) : Completable s := by
  obtain ⟨us, program, hrun⟩ := h
  exact ⟨t :: us, program, .cons hstep hrun⟩

/-- Between two statements, the open blocks can be closed one by one. -/
theorem completable_statement (blocks : List Block) (body : List Statement) :
    Completable ⟨blocks, body, .statement⟩ := by
  -- Closing the innermost block leaves a longer body in the one around it, so the body varies.
  induction blocks generalizing body with
  | nil =>
      refine ⟨[], body.reverse, ?_⟩
      rw [ParseState.complete, List.reverse_reverse]
      exact .nil
  | cons b bs ih =>
      have hbrace : ParseStep ⟨b :: bs, body, .statement⟩ (.blank .rightBrace) _ :=
        .closeBlock rfl rfl rfl
      have hend : ParseStep ⟨bs, b.before, .semicolon (b.head.statement body.reverse)⟩
        (.blank .semicolon) _ := .finish rfl rfl
      exact .of_step hbrace (.of_step hend (ih _))

/-- **No state is a dead end.** At each point the statement at hand can be brought to its end. -/
theorem completable (s : ParseState) : Completable s := by
  obtain ⟨blocks, body, point⟩ := s
  -- The last points of a statement come first: from the others the machine moves on to these.
  have move {p q : Point} {k : Kind} (h : Moves (inStateBlock blocks) p (.blank k) q)
      (hq : Completable ⟨blocks, body, q⟩) : Completable ⟨blocks, body, p⟩ :=
    .of_step (.move h) hq
  have brace {p : Point} {head : BlockHead} (h : BeforeBrace p head) :
      Completable ⟨blocks, body, p⟩ :=
    .of_step (t := .blank .leftBrace) (.openBlock h rfl) (completable_statement _ _)
  have semicolon (done : Statement) : Completable ⟨blocks, body, .semicolon done⟩ :=
    .of_step (t := .blank .semicolon) (.finish rfl rfl) (completable_statement _ _)
  have listState (owner : ListOwner) (states : List String) :
      Completable ⟨blocks, body, .listState owner states⟩ :=
    move (k := .rightBracket) (.closeOpen rfl) (semicolon _)
  have listBracket (owner : ListOwner) : Completable ⟨blocks, body, .listBracket owner⟩ :=
    move (k := .leftBracket) (.listBracket rfl) (listState _ _)
  have startState : Completable ⟨blocks, body, .startState⟩ :=
    move (k := .state) (.startState rfl) (semicolon _)
  have stateArrow (name : String) : Completable ⟨blocks, body, .stateArrow name⟩ :=
    move (k := .arrow) (.stateArrow rfl) (brace .state)
  cases point with
  | statement => exact completable_statement blocks body
  | machineName => exact move (k := .identifier) (.machineName rfl) (brace .machine)
  | machineBrace name => exact brace .machine
  | stateName => exact move (k := .identifier) (.stateName rfl) (stateArrow _)
  | stateArrow name => exact stateArrow name
  | stateBrace name => exact brace .state
  | startArrow => exact move (k := .arrow) (.startArrow rfl) startState
  | startState => exact startState
  | listArrow owner => exact move (k := .arrow) (.listArrow rfl) (listBracket owner)
  | listBracket owner => exact listBracket owner
  | listState owner states => exact listState owner states
  | listSeparator owner states => exact move (k := .rightBracket) (.close rfl) (semicolon _)
  | semicolon done => exact semicolon done

/-- The categories of what has been read can be completed to those of a program. -/
theorem Runs.viable (h : Runs .initial ts s) : Viable (ts.map Token.kind) := by
  obtain ⟨us, program, hrun⟩ := completable s
  refine ⟨us.map Token.kind, program, ts ++ us, ?_, List.map_append⟩
  exact runs_complete_iff.mp (h.append hrun)

/-- What can be completed to a program by its categories, the machine can read. -/
theorem Viable.exists_runs (h : Viable (ts.map Token.kind)) : ∃ s, Runs .initial ts s := by
  obtain ⟨us, program, hprogram⟩ := h.exists_program
  obtain ⟨s, hts, -⟩ := (runs_complete_iff.mpr hprogram).split
  exact ⟨s, hts⟩

end StateDiagram

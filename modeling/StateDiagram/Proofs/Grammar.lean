import StateDiagram.Statement.ParseState

/-!
# `Proofs.Grammar` — the language as a grammar

What a run of tokens can be read as, told without any machine: a relation between token lists and the
statements they spell, with one rule for each form of statement.

```text
program    = statement*
statement  = BEGIN | END
           | def identifier { statement* } ;
           | STATE identifier -> { (transition | statement)* } ;
           | START -> state ;
           | ACCEPT -> [ members(state) ] ;
transition = identifier -> [ members(state or SELF) ] ;
members(e) = nothing | elements(e) | elements(e) ,
elements(e) = e | e , elements(e)
```

A token counts by its category alone; its text is taken over into the tree where the grammar has a
name, and its place never matters.

## Contents

* `Elements`, `Members` — what stands between the brackets of a list;
* `Phrase`, `Derives` — the grammar; `IsProgram` — its start symbol;
* `Derives.append`, `Derives.snoc` — statements one after the other;
* `Derives.names_eq` — a tree holds the names of its tokens, each once and in order;
* `Derives.relabel` — other texts on the same categories give another tree of the same grammar;
* `Grammatical`, `Viable` — the category lists of programs, and what can be completed to one.
-/

namespace StateDiagram

/-! ## Lists -/

/-- One or more names, with a comma between each two. -/
inductive Elements (member : Kind → Prop) : List Token → List String → Prop where
  | last {t : Token} : member t.kind → Elements member [t] [t.value]
  | more {t c : Token} {ts : List Token} {names : List String} :
      member t.kind → c.kind = .comma → Elements member ts names →
        Elements member (t :: c :: ts) (t.value :: names)

/-- The inside of a pair of brackets: nothing, or names, and one more comma after them or none. -/
inductive Members (member : Kind → Prop) : List Token → List String → Prop where
  | empty : Members member [] []
  | plain {ts : List Token} {names : List String} :
      Elements member ts names → Members member ts names
  | trailing {ts : List Token} {names : List String} {c : Token} :
      Elements member ts names → c.kind = .comma → Members member (ts ++ [c]) names

/-- The categories that an accepting list may name: states. -/
def IsState (k : Kind) : Prop := k = .state

/-- The categories that a transition may lead to: states, and the state that it starts from. -/
def IsTarget (k : Kind) : Prop := k = .state ∨ k = .self

/-! ## Statements -/

/-- What the rules of the grammar derive: one statement, or any number of them. -/
inductive Phrase where
  | one (s : Statement)
  | many (ss : List Statement)

/-- **The grammar.** `Derives inState phrase ts`: the tokens `ts` spell the phrase, where `inState`
    tells whether transitions may stand beside other statements, as they may in a state block. -/
inductive Derives : Bool → Phrase → List Token → Prop where
  | beginMark {inState : Bool} {t : Token} :
      t.kind = .beginMark → Derives inState (.one .beginMark) [t]
  | endMark {inState : Bool} {t : Token} :
      t.kind = .endMark → Derives inState (.one .endMark) [t]
  | machine {inState : Bool} {kw name l r e : Token} {body : List Statement} {ts : List Token} :
      kw.kind = .machine → name.kind = .identifier →
      l.kind = .leftBrace → Derives false (.many body) ts → r.kind = .rightBrace →
      e.kind = .semicolon →
        Derives inState (.one (.machine name.value body)) (kw :: name :: l :: (ts ++ [r, e]))
  | stateDef {inState : Bool} {kw name a l r e : Token} {body : List Statement}
      {ts : List Token} :
      kw.kind = .stateDef → name.kind = .identifier → a.kind = .arrow →
      l.kind = .leftBrace → Derives true (.many body) ts → r.kind = .rightBrace →
      e.kind = .semicolon →
        Derives inState (.one (.stateDef name.value body))
          (kw :: name :: a :: l :: (ts ++ [r, e]))
  | start {inState : Bool} {kw a name e : Token} :
      kw.kind = .start → a.kind = .arrow → name.kind = .state → e.kind = .semicolon →
        Derives inState (.one (.start name.value)) [kw, a, name, e]
  | accept {inState : Bool} {kw a l r e : Token} {ts : List Token} {states : List String} :
      kw.kind = .accept → a.kind = .arrow →
      l.kind = .leftBracket → Members IsState ts states → r.kind = .rightBracket →
      e.kind = .semicolon →
        Derives inState (.one (.accept states)) (kw :: a :: l :: (ts ++ [r, e]))
  | transition {name a l r e : Token} {ts : List Token} {targets : List String} :
      name.kind = .identifier → a.kind = .arrow →
      l.kind = .leftBracket → Members IsTarget ts targets → r.kind = .rightBracket →
      e.kind = .semicolon →
        Derives true (.one (.transition name.value targets)) (name :: a :: l :: (ts ++ [r, e]))
  | nil {inState : Bool} : Derives inState (.many []) []
  | cons {inState : Bool} {s : Statement} {ss : List Statement} {ts us : List Token} :
      Derives inState (.one s) ts → Derives inState (.many ss) us →
        Derives inState (.many (s :: ss)) (ts ++ us)

/-- The tokens of a program: statements, none of them a transition. -/
def IsProgram (program : List Statement) (ts : List Token) : Prop :=
  Derives false (.many program) ts

variable {inState : Bool} {ss ss' : List Statement} {ts us : List Token}

/-- Statements may follow statements. -/
theorem Derives.append (h : Derives inState (.many ss) ts) (h' : Derives inState (.many ss') us) :
    Derives inState (.many (ss ++ ss')) (ts ++ us) := by
  -- On the statements, not on the derivation: only the rules for several statements apply.
  induction ss generalizing ts with
  | nil =>
      cases h
      exact h'
  | cons s ss ih =>
      cases h with
      | cons hs hss =>
          rw [List.append_assoc]
          exact .cons hs (ih hss)

/-- One more statement may follow statements. -/
theorem Derives.snoc {s : Statement} (h : Derives inState (.many ss) ts)
    (h' : Derives inState (.one s) us) : Derives inState (.many (ss ++ [s])) (ts ++ us) := by
  have hone : Derives inState (.many [s]) (us ++ []) := .cons h' .nil
  rw [List.append_nil] at hone
  exact h.append hone

/-- One more name may follow names and a comma. -/
theorem Elements.snoc {member : Kind → Prop} {names : List String} {c t : Token}
    (h : Elements member ts names) (hc : c.kind = .comma) (ht : member t.kind) :
    Elements member (ts ++ [c, t]) (names ++ [t.value]) := by
  induction h with
  | last hm => exact .more hm hc (.last ht)
  | more hm hc' _ ih => exact .more hm hc' ih

/-! ## The names of a tree are those of its tokens -/

mutual

/-- The names in a statement, in the order in which they are written. -/
def Statement.names : Statement → List String
  | .beginMark | .endMark => []
  | .machine name body => name :: namesOf body
  | .start state => [state]
  | .accept states => states
  | .stateDef name body => name :: namesOf body
  | .transition label targets => label :: targets

/-- The names in several statements. -/
def namesOf : List Statement → List String
  | [] => []
  | s :: ss => s.names ++ namesOf ss

end

/-- The names in a phrase. -/
def Phrase.names : Phrase → List String
  | one s => s.names
  | many ss => namesOf ss

/-- A token whose text the grammar takes over as a name. -/
def Token.isNamed (t : Token) : Bool :=
  t.kind == .identifier || t.kind == .state || t.kind == .self

/-- The texts of the names among tokens, in order. -/
def namedBy (ts : List Token) : List String :=
  (ts.filter Token.isNamed).map Token.value

@[simp] theorem namedBy_nil : namedBy [] = [] := rfl

@[simp] theorem namedBy_append (ts us : List Token) :
    namedBy (ts ++ us) = namedBy ts ++ namedBy us := by
  simp [namedBy]

theorem namedBy_cons (t : Token) (ts : List Token) :
    namedBy (t :: ts) = if t.isNamed then t.value :: namedBy ts else namedBy ts := by
  cases h : t.isNamed <;> simp [namedBy, h]

theorem Elements.names_eq {member : Kind → Prop} {names : List String}
    (hm : ∀ k, member k → IsTarget k) (h : Elements member ts names) : namedBy ts = names := by
  induction h with
  | @last t ht =>
      rcases hm _ ht with hk | hk <;> simp [namedBy_cons, Token.isNamed, hk]
  | @more t c ts names ht hc _ ih =>
      rcases hm _ ht with hk | hk <;> simp [namedBy_cons, Token.isNamed, hk, hc, ih]

theorem Members.names_eq {member : Kind → Prop} {names : List String}
    (hm : ∀ k, member k → IsTarget k) (h : Members member ts names) : namedBy ts = names := by
  cases h with
  | empty => rfl
  | plain he => exact he.names_eq hm
  | trailing he hc => simp [he.names_eq hm, namedBy_cons, Token.isNamed, hc]

/-- **A tree holds the names of its tokens**, each as often as it is written and in that order. -/
theorem Derives.names_eq {phrase : Phrase} (h : Derives inState phrase ts) :
    phrase.names = namedBy ts := by
  induction h with
  | beginMark h => simp [namedBy_cons, Token.isNamed, h, Phrase.names, Statement.names]
  | endMark h => simp [namedBy_cons, Token.isNamed, h, Phrase.names, Statement.names]
  | machine hkw hname hl _ hr he ih =>
      simp only [Phrase.names] at ih
      simp [namedBy_cons, Token.isNamed, hkw, hname, hl, hr, he, ih, Phrase.names, Statement.names]
  | stateDef hkw hname ha hl _ hr he ih =>
      simp only [Phrase.names] at ih
      simp [namedBy_cons, Token.isNamed, hkw, hname, ha, hl, hr, he, ih, Phrase.names,
        Statement.names]
  | start hkw ha hname he =>
      simp [namedBy_cons, Token.isNamed, hkw, ha, hname, he, Phrase.names, Statement.names]
  | accept hkw ha hl hts hr he =>
      have hnames := hts.names_eq (fun _ hk => .inl hk)
      simp [namedBy_cons, Token.isNamed, hkw, ha, hl, hr, he, hnames, Phrase.names,
        Statement.names]
  | transition hname ha hl hts hr he =>
      have hnames := hts.names_eq (fun _ hk => hk)
      simp [namedBy_cons, Token.isNamed, hname, ha, hl, hr, he, hnames, Phrase.names,
        Statement.names]
  | nil => rfl
  | cons _ _ ih ih' =>
      simp only [Phrase.names] at ih ih'
      simp [Phrase.names, namesOf, ih, ih']

/-! ## Categories alone decide -/

/-- Whether a phrase is one statement or any number of them. -/
def Phrase.isOne : Phrase → Bool
  | one _ => true
  | many _ => false

theorem Elements.relabel {member : Kind → Prop} {names : List String}
    (h : Elements member ts names) (hk : us.map Token.kind = ts.map Token.kind) :
    ∃ names', Elements member us names' ∧
      (us.map Token.value = ts.map Token.value → names' = names) := by
  induction h generalizing us with
  | @last t ht =>
      obtain ⟨u, rfl, hu⟩ := List.map_eq_singleton_iff.mp hk
      exact ⟨_, .last (hu ▸ ht), by simp⟩
  | @more t c ts names ht hc _ ih =>
      obtain ⟨u, us, rfl, hu, hk⟩ := List.map_eq_cons_iff.mp hk
      obtain ⟨d, us, rfl, hd, hk⟩ := List.map_eq_cons_iff.mp hk
      obtain ⟨names', hn, heq⟩ := ih hk
      refine ⟨_, .more (hu ▸ ht) (hd ▸ hc) hn, ?_⟩
      intro hv
      simp only [List.map_cons, List.cons.injEq] at hv
      rw [hv.1, heq hv.2.2]

theorem Members.relabel {member : Kind → Prop} {names : List String}
    (h : Members member ts names) (hk : us.map Token.kind = ts.map Token.kind) :
    ∃ names', Members member us names' ∧
      (us.map Token.value = ts.map Token.value → names' = names) := by
  cases h with
  | empty =>
      obtain rfl := List.map_eq_nil_iff.mp hk
      exact ⟨[], .empty, fun _ => rfl⟩
  | plain he =>
      obtain ⟨names', hn, heq⟩ := he.relabel hk
      exact ⟨names', .plain hn, heq⟩
  | trailing he hc =>
      rw [List.map_append] at hk
      obtain ⟨us, vs, rfl, hus, hvs⟩ := List.map_eq_append_iff.mp hk
      obtain ⟨d, rfl, hd⟩ := List.map_eq_singleton_iff.mp hvs
      obtain ⟨names', hn, heq⟩ := he.relabel hus
      refine ⟨names', .trailing hn (hd ▸ hc), ?_⟩
      intro hv
      simp only [List.map_append] at hv
      exact heq (List.append_inj hv (by simpa using congrArg List.length hus)).1

/-- What ends with two tokens in one token list ends with two in any other of the same categories. -/
theorem relabel_enclosed {r e : Token} (hk : us.map Token.kind = (ts ++ [r, e]).map Token.kind) :
    ∃ vs r' e', us = vs ++ [r', e'] ∧ vs.map Token.kind = ts.map Token.kind ∧
      r'.kind = r.kind ∧ e'.kind = e.kind ∧
      (us.map Token.value = (ts ++ [r, e]).map Token.value →
        vs.map Token.value = ts.map Token.value) := by
  rw [List.map_append] at hk
  obtain ⟨vs, ws, rfl, hvs, hws⟩ := List.map_eq_append_iff.mp hk
  obtain ⟨r', ws, rfl, hr, hws⟩ := List.map_eq_cons_iff.mp hws
  obtain ⟨e', rfl, he⟩ := List.map_eq_singleton_iff.mp hws
  refine ⟨vs, r', e', rfl, hvs, hr, he, ?_⟩
  intro hv
  simp only [List.map_append] at hv
  exact (List.append_inj hv (by simpa using congrArg List.length hvs)).1

/-- **Categories alone decide.** Tokens of the same categories spell a phrase of the same sort, and
    the same phrase if their texts are the same too. -/
theorem Derives.relabel {phrase : Phrase} (h : Derives inState phrase ts)
    (hk : us.map Token.kind = ts.map Token.kind) :
    ∃ phrase', phrase'.isOne = phrase.isOne ∧ Derives inState phrase' us ∧
      (us.map Token.value = ts.map Token.value → phrase' = phrase) := by
  -- Each rule cuts the other list as it cuts its own, and applies to the pieces.
  induction h generalizing us with
  | beginMark h =>
      obtain ⟨u, rfl, hu⟩ := List.map_eq_singleton_iff.mp hk
      exact ⟨_, rfl, .beginMark (hu ▸ h), fun _ => rfl⟩
  | endMark h =>
      obtain ⟨u, rfl, hu⟩ := List.map_eq_singleton_iff.mp hk
      exact ⟨_, rfl, .endMark (hu ▸ h), fun _ => rfl⟩
  | machine hkw hname hl _ hr he ih =>
      obtain ⟨kw', us, rfl, hkw', hk⟩ := List.map_eq_cons_iff.mp hk
      obtain ⟨name', us, rfl, hname', hk⟩ := List.map_eq_cons_iff.mp hk
      obtain ⟨l', us, rfl, hl', hk⟩ := List.map_eq_cons_iff.mp hk
      obtain ⟨vs, r', e', rfl, hvs, hr', he', hval⟩ := relabel_enclosed hk
      obtain ⟨_ | body', hsort, hbody, heq⟩ := ih hvs
      · cases hsort
      · refine ⟨.one (.machine name'.value body'), rfl, .machine (hkw' ▸ hkw) (hname' ▸ hname)
          (hl' ▸ hl) hbody (hr' ▸ hr) (he' ▸ he), ?_⟩
        intro hv
        simp only [List.map_cons, List.cons.injEq] at hv
        rw [hv.2.1, Phrase.many.inj (heq (hval hv.2.2.2))]
  | stateDef hkw hname ha hl _ hr he ih =>
      obtain ⟨kw', us, rfl, hkw', hk⟩ := List.map_eq_cons_iff.mp hk
      obtain ⟨name', us, rfl, hname', hk⟩ := List.map_eq_cons_iff.mp hk
      obtain ⟨a', us, rfl, ha', hk⟩ := List.map_eq_cons_iff.mp hk
      obtain ⟨l', us, rfl, hl', hk⟩ := List.map_eq_cons_iff.mp hk
      obtain ⟨vs, r', e', rfl, hvs, hr', he', hval⟩ := relabel_enclosed hk
      obtain ⟨_ | body', hsort, hbody, heq⟩ := ih hvs
      · cases hsort
      · refine ⟨.one (.stateDef name'.value body'), rfl, .stateDef (hkw' ▸ hkw) (hname' ▸ hname)
          (ha' ▸ ha) (hl' ▸ hl) hbody (hr' ▸ hr) (he' ▸ he), ?_⟩
        intro hv
        simp only [List.map_cons, List.cons.injEq] at hv
        rw [hv.2.1, Phrase.many.inj (heq (hval hv.2.2.2.2))]
  | start hkw ha hname he =>
      obtain ⟨kw', us, rfl, hkw', hk⟩ := List.map_eq_cons_iff.mp hk
      obtain ⟨a', us, rfl, ha', hk⟩ := List.map_eq_cons_iff.mp hk
      obtain ⟨name', us, rfl, hname', hk⟩ := List.map_eq_cons_iff.mp hk
      obtain ⟨e', rfl, he'⟩ := List.map_eq_singleton_iff.mp hk
      refine ⟨.one (.start name'.value), rfl,
        .start (hkw' ▸ hkw) (ha' ▸ ha) (hname' ▸ hname) (he' ▸ he), ?_⟩
      intro hv
      simp only [List.map_cons, List.cons.injEq] at hv
      rw [hv.2.2.1]
  | accept hkw ha hl hts hr he =>
      obtain ⟨kw', us, rfl, hkw', hk⟩ := List.map_eq_cons_iff.mp hk
      obtain ⟨a', us, rfl, ha', hk⟩ := List.map_eq_cons_iff.mp hk
      obtain ⟨l', us, rfl, hl', hk⟩ := List.map_eq_cons_iff.mp hk
      obtain ⟨vs, r', e', rfl, hvs, hr', he', hval⟩ := relabel_enclosed hk
      obtain ⟨states', hstates, heq⟩ := hts.relabel hvs
      refine ⟨.one (.accept states'), rfl, .accept (hkw' ▸ hkw) (ha' ▸ ha) (hl' ▸ hl) hstates
        (hr' ▸ hr) (he' ▸ he), ?_⟩
      intro hv
      simp only [List.map_cons, List.cons.injEq] at hv
      rw [heq (hval hv.2.2.2)]
  | transition hname ha hl hts hr he =>
      obtain ⟨name', us, rfl, hname', hk⟩ := List.map_eq_cons_iff.mp hk
      obtain ⟨a', us, rfl, ha', hk⟩ := List.map_eq_cons_iff.mp hk
      obtain ⟨l', us, rfl, hl', hk⟩ := List.map_eq_cons_iff.mp hk
      obtain ⟨vs, r', e', rfl, hvs, hr', he', hval⟩ := relabel_enclosed hk
      obtain ⟨targets', htargets, heq⟩ := hts.relabel hvs
      refine ⟨.one (.transition name'.value targets'), rfl, .transition (hname' ▸ hname)
        (ha' ▸ ha) (hl' ▸ hl) htargets (hr' ▸ hr) (he' ▸ he), ?_⟩
      intro hv
      simp only [List.map_cons, List.cons.injEq] at hv
      rw [hv.1, heq (hval hv.2.2.2)]
  | nil =>
      obtain rfl := List.map_eq_nil_iff.mp hk
      exact ⟨.many [], rfl, .nil, fun _ => rfl⟩
  | cons _ _ ih ih' =>
      rw [List.map_append] at hk
      obtain ⟨us, vs, rfl, hus, hvs⟩ := List.map_eq_append_iff.mp hk
      obtain ⟨s' | _, hsort, hs, heq⟩ := ih hus
      · obtain ⟨_ | ss', hsort', hss, heq'⟩ := ih' hvs
        · cases hsort'
        · refine ⟨.many (s' :: ss'), rfl, .cons hs hss, ?_⟩
          intro hv
          simp only [List.map_append] at hv
          obtain ⟨hu, hv⟩ := List.append_inj hv (by simpa using congrArg List.length hus)
          rw [Phrase.one.inj (heq hu), Phrase.many.inj (heq' hv)]
      · cases hsort

/-! ## The language -/

/-- The category lists of programs. -/
def Grammatical (ks : List Kind) : Prop :=
  ∃ program ts, IsProgram program ts ∧ ts.map Token.kind = ks

/-- What can be completed to the category list of a program. -/
def Viable (ks : List Kind) : Prop :=
  ∃ rest, Grammatical (ks ++ rest)

/-- Tokens of a program's categories spell a program. -/
theorem Grammatical.exists_program (h : Grammatical (ts.map Token.kind)) :
    ∃ program, IsProgram program ts := by
  obtain ⟨program, us, hus, hk⟩ := h
  obtain ⟨_ | program', hsort, hts, -⟩ := Derives.relabel hus hk.symm
  · cases hsort
  · exact ⟨program', hts⟩

/-- Tokens of viable categories begin some program. -/
theorem Viable.exists_program (h : Viable (ts.map Token.kind)) :
    ∃ us program, IsProgram program (ts ++ us) := by
  obtain ⟨rest, program, vs, hvs, hk⟩ := h
  have hrest : (ts ++ vs.drop ts.length).map Token.kind = ts.map Token.kind ++ rest := by
    rw [List.map_append, List.map_drop, hk, ← List.length_map Token.kind, List.drop_left]
  have hgrammatical : Grammatical ((ts ++ vs.drop ts.length).map Token.kind) :=
    ⟨program, vs, hvs, hk.trans hrest.symm⟩
  exact ⟨_, hgrammatical.exists_program⟩

end StateDiagram

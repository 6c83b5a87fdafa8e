import StateDiagram.Proofs.Nesting

/-!
# `Proofs.Surroundings` — the block and the list around a place

What may come next depends on the block that is open around it, and in a list on the statement that the
list belongs to. Both can be told from the categories of the tokens before, without any machine: the
innermost open block is the one whose brace is followed by balanced braces only, and a list is open as
long as no bracket follows the one that opens it. The reading machine keeps the same things on its stack
and in its point.

From the machine to the categories, what has been read up to a state tells where the block or the list
began. In the other direction a run is followed from there: balanced tokens leave the stack as it was, and
a list is left by a closing bracket only.

## Contents

* `IsBalanced`, `Derives.isBalanced` — braces that close each other; statements have no others;
* `WithinBlock`, `WithinTransition` — the innermost block, and the list of a transition;
* `ParseStep.moves`, `ParseStep.openBlock_of_leftBrace`, `ParseStep.closeBlock_of_rightBrace` — what a
  token does, told by its category;
* `Runs.blocks_eq` — balanced tokens leave the stack as it was;
* `Runs.split_of_map` — a run cut where the categories of its tokens are;
* `withinBlock_brace_iff`, `withinBlock_state_iff` — whether a block is open, and whether it is a state's;
* `Runs.listOwner?_eq` — a list is left by its closing bracket only;
* `withinTransition_iff` — whether a list is a transition's.
-/

namespace StateDiagram

variable {inState : Bool} {s s' u : ParseState} {t : Token} {ts us : List Token} {k : Kind}
  {ks : List Kind} {owner : ListOwner} {states : List String}

/-! ## Balanced braces -/

/-- **Balanced categories**: every brace among them is closed or opened by another. -/
inductive IsBalanced : List Kind → Prop where
  | nil : IsBalanced []
  | other {k : Kind} : k ≠ .leftBrace → k ≠ .rightBrace → IsBalanced [k]
  | append {ks js : List Kind} : IsBalanced ks → IsBalanced js → IsBalanced (ks ++ js)
  | block {ks : List Kind} : IsBalanced ks → IsBalanced (.leftBrace :: (ks ++ [.rightBrace]))

/-- Categories without braces are balanced. -/
theorem isBalanced_of_forall (h : ∀ k ∈ ks, k ≠ .leftBrace ∧ k ≠ .rightBrace) : IsBalanced ks := by
  induction ks with
  | nil => exact .nil
  | cons k ks ih =>
      rw [List.forall_mem_cons] at h
      exact .append (.other h.1.1 h.1.2) (ih h.2)

/-- What stands in a list: states, targets that lead back, and commas. -/
theorem Elements.forall_kind {names : List String} (h : Elements owner.IsMember ts names) :
    ∀ t ∈ ts, IsTarget t.kind ∨ t.kind = .comma := by
  have hmember {k : Kind} (hk : owner.IsMember k) : IsTarget k := by
    cases owner with
    | accept => exact .inl hk
    | transition _ => exact hk
  induction h with
  | last ht => exact List.forall_mem_singleton.mpr (.inl (hmember ht))
  | more ht hc _ ih =>
      exact List.forall_mem_cons.mpr ⟨.inl (hmember ht), List.forall_mem_cons.mpr ⟨.inr hc, ih⟩⟩

theorem Members.forall_kind {names : List String} (h : Members owner.IsMember ts names) :
    ∀ t ∈ ts, IsTarget t.kind ∨ t.kind = .comma := by
  cases h with
  | empty => exact List.forall_mem_nil _
  | plain he => exact he.forall_kind
  | trailing he hc =>
      exact List.forall_mem_append.mpr ⟨he.forall_kind, List.forall_mem_singleton.mpr (.inr hc)⟩

/-- Nothing of what stands in a list is a brace or a bracket. -/
theorem not_mem_of_forall_kind (h : ∀ t ∈ ts, IsTarget t.kind ∨ t.kind = .comma) :
    ∀ k ∈ ts.map Token.kind,
      k ≠ .leftBrace ∧ k ≠ .rightBrace ∧ k ≠ .leftBracket ∧ k ≠ .rightBracket := by
  intro k hk
  obtain ⟨t, ht, rfl⟩ := List.mem_map.mp hk
  rcases h t ht with (hk | hk) | hk <;> rw [hk] <;> decide

/-- A list with the token before it, the arrow and what ends the statement is balanced. -/
theorem isBalanced_list (first : Kind) (hfirst : first ≠ .leftBrace ∧ first ≠ .rightBrace)
    (h : ∀ t ∈ ts, IsTarget t.kind ∨ t.kind = .comma) :
    IsBalanced (first :: .arrow :: .leftBracket ::
      (ts.map Token.kind ++ [.rightBracket, .semicolon])) := by
  apply isBalanced_of_forall
  simp only [List.forall_mem_cons, List.forall_mem_append]
  refine ⟨hfirst, by decide, by decide, fun k hk => ?_, by decide, by decide, List.forall_mem_nil _⟩
  have hno := not_mem_of_forall_kind h k hk
  exact ⟨hno.1, hno.2.1⟩

/-- A block with what is before its brace and the semicolon after it is balanced. -/
theorem isBalanced_block (head : List Kind) (hhead : ∀ k ∈ head, k ≠ .leftBrace ∧ k ≠ .rightBrace)
    (h : IsBalanced ks) :
    IsBalanced (head ++ .leftBrace :: (ks ++ [.rightBrace, .semicolon])) := by
  have hsplit : .leftBrace :: (ks ++ [.rightBrace, .semicolon]) =
      .leftBrace :: (ks ++ [.rightBrace]) ++ [.semicolon] := by simp
  rw [hsplit]
  exact .append (isBalanced_of_forall hhead) (.append (.block h) (.other (by decide) (by decide)))

/-- **The tokens of a phrase are balanced.** -/
theorem Derives.isBalanced {phrase : Phrase} (h : Derives inState phrase ts) :
    IsBalanced (ts.map Token.kind) := by
  induction h with
  | beginMark hk | endMark hk =>
      rw [List.map_singleton, hk]
      exact .other (by decide) (by decide)
  | machine hkw hname hl _ hr he ih =>
      have hblock := isBalanced_block [.machine, .identifier] (by decide) ih
      simpa [hkw, hname, hl, hr, he] using hblock
  | stateDef hkw hname ha hl _ hr he ih =>
      have hblock := isBalanced_block [.stateDef, .identifier, .arrow] (by decide) ih
      simpa [hkw, hname, ha, hl, hr, he] using hblock
  | start hkw ha hname he =>
      simp only [List.map_cons, List.map_nil, hkw, ha, hname, he]
      exact isBalanced_of_forall (by decide)
  | @accept _ kw a l r e ts states hkw ha hl hts hr he =>
      have hmembers := @Members.forall_kind ts .accept states hts
      have hlist := isBalanced_list .accept (by decide) hmembers
      simpa [hkw, ha, hl, hr, he] using hlist
  | @transition name a l r e ts targets hname ha hl hts hr he =>
      have hmembers := @Members.forall_kind ts (.transition name.value) targets hts
      have hlist := isBalanced_list .identifier (by decide) hmembers
      simpa [hname, ha, hl, hr, he] using hlist
  | nil => exact .nil
  | cons _ _ ih ih' =>
      rw [List.map_append]
      exact .append ih ih'

/-! ## Blocks and lists told by categories -/

/-- **Categories end within a block** that begins with `head`, up to its brace: after that the braces are
    balanced, so the block is open and is the innermost. -/
def WithinBlock (head ks : List Kind) : Prop :=
  ∃ outer inner, ks = outer ++ head ++ inner ∧ IsBalanced inner

/-- **Categories end within the list of a transition**: after its bracket there is no other. -/
def WithinTransition (ks : List Kind) : Prop :=
  ∃ outer inner, ks = outer ++ [.identifier, .arrow, .leftBracket] ++ inner ∧
    .leftBracket ∉ inner ∧ .rightBracket ∉ inner

/-- What a state's block begins with. -/
def stateHead : List Kind := [.stateDef, .identifier, .arrow, .leftBrace]

/-! ## What a token does, told by its category -/

/-- The categories that end a statement or a block, or begin a block. -/
def enders : List Kind := [.beginMark, .endMark, .semicolon, .leftBrace, .rightBrace]

/-- A token of any other category only moves the point. -/
theorem ParseStep.moves (h : ParseStep s t s') (hk : t.kind ∉ enders) :
    Moves (inStateBlock s.blocks) s.point t s'.point := by
  cases h with
  | move hm => exact hm
  | beginMark _ ht | endMark _ ht | finish _ ht | openBlock _ ht | closeBlock _ _ ht =>
      rw [ht] at hk
      exact absurd hk (by decide)

/-- An opening brace begins a block. -/
theorem ParseStep.openBlock_of_leftBrace (h : ParseStep s t s') (hk : t.kind = .leftBrace) :
    ∃ head, BeforeBrace s.point head ∧ s' = s.openBlock head := by
  cases h with
  | openBlock hp _ => exact ⟨_, hp, rfl⟩
  | move hm =>
      have hzero := hm.opening_eq_zero
      rw [hk] at hzero
      cases hzero
  | beginMark _ ht | endMark _ ht | finish _ ht | closeBlock _ _ ht =>
      rw [ht] at hk
      cases hk

/-- A closing brace ends the innermost block. -/
theorem ParseStep.closeBlock_of_rightBrace (h : ParseStep s t s') (hk : t.kind = .rightBrace) :
    ∃ b, s.blocks = b :: s'.blocks := by
  cases h with
  | closeBlock hb _ _ => exact ⟨_, hb⟩
  | move hm =>
      have hzero := hm.opening_eq_zero
      rw [hk] at hzero
      cases hzero
  | beginMark _ ht | endMark _ ht | finish _ ht | openBlock _ ht =>
      rw [ht] at hk
      cases hk

/-- Any other token leaves the stack as it was. -/
theorem ParseStep.blocks_eq (h : ParseStep s t s') (hl : t.kind ≠ .leftBrace)
    (hr : t.kind ≠ .rightBrace) : s'.blocks = s.blocks := by
  cases h with
  | move _ | beginMark _ _ | endMark _ _ | finish _ _ => rfl
  | openBlock _ ht => exact absurd ht hl
  | closeBlock _ _ ht => exact absurd ht hr

/-- **Balanced tokens leave the stack as it was.** -/
theorem Runs.blocks_eq (h : IsBalanced ks) (hrun : Runs s ts s') (hk : ts.map Token.kind = ks) :
    s'.blocks = s.blocks := by
  induction h generalizing s s' ts with
  | nil =>
      obtain rfl := List.map_eq_nil_iff.mp hk
      cases hrun
      rfl
  | other hl hr =>
      obtain ⟨t, rfl, rfl⟩ := List.map_eq_singleton_iff.mp hk
      exact (runs_singleton_iff.mp hrun).blocks_eq hl hr
  | append _ _ ih ih' =>
      obtain ⟨ts, us, rfl, hts, hus⟩ := List.map_eq_append_iff.mp hk
      obtain ⟨u, hfirst, hlast⟩ := hrun.split
      rw [ih' hlast hus, ih hfirst hts]
  | block _ ih =>
      obtain ⟨l, ts, rfl, hl, hk⟩ := List.map_eq_cons_iff.mp hk
      obtain ⟨ts, us, rfl, hts, hus⟩ := List.map_eq_append_iff.mp hk
      obtain ⟨r, rfl, hr⟩ := List.map_eq_singleton_iff.mp hus
      obtain ⟨u, hopen, hrest⟩ := runs_cons_iff.mp hrun
      obtain ⟨v, hinner, hlast⟩ := hrest.split
      have hclose := runs_singleton_iff.mp hlast
      -- The block that the first brace puts on the stack is the one that the last takes off.
      obtain ⟨head, -, rfl⟩ := hopen.openBlock_of_leftBrace hl
      obtain ⟨b, hb⟩ := hclose.closeBlock_of_rightBrace hr
      rw [ih hinner hts] at hb
      exact (List.cons.inj hb).2.symm

/-- A run passes through two states where the categories of its tokens are cut in three. -/
theorem Runs.split_of_map {outer head inner : List Kind} (hrun : Runs s ts s')
    (hk : ts.map Token.kind = outer ++ head ++ inner) :
    ∃ hs us v w, hs.map Token.kind = head ∧ us.map Token.kind = inner ∧ Runs v hs w ∧
      Runs w us s' := by
  obtain ⟨before, us, rfl, hbefore, hus⟩ := List.map_eq_append_iff.mp hk
  obtain ⟨first, hs, rfl, -, hhs⟩ := List.map_eq_append_iff.mp hbefore
  obtain ⟨w, hw, hrest⟩ := hrun.split
  obtain ⟨v, -, hhead⟩ := hw.split
  exact ⟨hs, us, v, w, hhs, hus, hhead, hrest⟩

/-! ## The innermost block -/

/-- Between two statements, what has been read began the innermost block, and has been balanced since. -/
theorem Runs.exists_headed {b : Block} {bs : List Block} (hrun : Runs .initial ts s)
    (hp : s.point = .statement) (hb : s.blocks = b :: bs) :
    ∃ outer hs inner, ts = outer ++ hs ++ inner ∧ Headed b.head hs ∧
      IsBalanced (inner.map Token.kind) := by
  have hreads : Reads s ts := hrun.reads reads_initial
  obtain ⟨hblocks, hbody, hpending⟩ := hreads
  rw [hp] at hpending
  cases hpending
  rw [hb] at hblocks
  cases hblocks with
  | @cons _ _ ts₀ us₀ hs _ _ hhead =>
      exact ⟨ts₀ ++ us₀, hs, _, by rw [List.append_nil], hhead, hbody.isBalanced⟩

/-- **Whether a block is open** shows in the categories. -/
theorem withinBlock_brace_iff (hrun : Runs .initial ts s) (hp : s.point = .statement) :
    WithinBlock [.leftBrace] (ts.map Token.kind) ↔ s.blocks ≠ [] := by
  constructor
  · rintro ⟨outer, inner, hk, hinner⟩
    obtain ⟨hs, us, _, _, hhs, hus, hopen, hrest⟩ := hrun.split_of_map hk
    obtain ⟨l, rfl, hl⟩ := List.map_eq_singleton_iff.mp hhs
    obtain ⟨head, -, rfl⟩ := (runs_singleton_iff.mp hopen).openBlock_of_leftBrace hl
    rw [hrest.blocks_eq hinner hus]
    exact List.cons_ne_nil _ _
  · intro hne
    obtain ⟨b, bs, hb⟩ := List.exists_cons_of_ne_nil hne
    obtain ⟨outer, hs, inner, rfl, hhead, hinner⟩ := hrun.exists_headed hp hb
    generalize b.head = head at hhead
    cases hhead with
    | @machine kw name l _ _ hl =>
        exact ⟨(outer ++ [kw, name]).map Token.kind, inner.map Token.kind, by simp [hl], hinner⟩
    | @state kw name a l _ _ _ hl =>
        exact ⟨(outer ++ [kw, name, a]).map Token.kind, inner.map Token.kind, by simp [hl], hinner⟩

/-- An arrow and a brace begin a state's block. -/
theorem inStateBlock_of_arrow {a l : Token} (harrow : ParseStep s a u) (ha : a.kind = .arrow)
    (hbrace : ParseStep u l s') (hl : l.kind = .leftBrace) : inStateBlock s'.blocks = true := by
  obtain ⟨head, hhead, rfl⟩ := hbrace.openBlock_of_leftBrace hl
  have hmove := harrow.moves (by rw [ha]; decide)
  -- A machine's name is no arrow, and its brace follows its name.
  generalize u.point = p at hhead hmove
  cases hhead with
  | state => rfl
  | machine =>
      generalize s.point = q at hmove
      cases hmove with
      | machineName hname =>
          rw [ha] at hname
          cases hname

/-- **Whether the innermost block is a state's** shows in the categories. -/
theorem withinBlock_state_iff (hrun : Runs .initial ts s) (hp : s.point = .statement) :
    WithinBlock stateHead (ts.map Token.kind) ↔ inStateBlock s.blocks = true := by
  constructor
  · rintro ⟨outer, inner, hk, hinner⟩
    obtain ⟨hs, us, _, _, hhs, hus, hsteps, hrest⟩ := hrun.split_of_map hk
    obtain ⟨kw, hs, rfl, -, hhs⟩ := List.map_eq_cons_iff.mp hhs
    obtain ⟨name, hs, rfl, -, hhs⟩ := List.map_eq_cons_iff.mp hhs
    obtain ⟨a, hs, rfl, ha, hhs⟩ := List.map_eq_cons_iff.mp hhs
    obtain ⟨l, rfl, hl⟩ := List.map_eq_singleton_iff.mp hhs
    obtain ⟨_, -, hsteps⟩ := runs_cons_iff.mp hsteps
    obtain ⟨_, -, hsteps⟩ := runs_cons_iff.mp hsteps
    obtain ⟨_, harrow, hbrace⟩ := runs_cons_iff.mp hsteps
    rw [hrest.blocks_eq hinner hus]
    exact inStateBlock_of_arrow harrow ha (runs_singleton_iff.mp hbrace) hl
  · intro hin
    have hne : s.blocks ≠ [] := by
      intro hnil
      rw [hnil] at hin
      cases hin
    obtain ⟨b, bs, hb⟩ := List.exists_cons_of_ne_nil hne
    obtain ⟨outer, hs, inner, rfl, hhead, hinner⟩ := hrun.exists_headed hp hb
    rw [hb, inStateBlock] at hin
    generalize b.head = head at hhead hin
    cases hhead with
    | machine => cases hin
    | @state kw name a l hkw hname ha hl =>
        exact ⟨outer.map Token.kind, inner.map Token.kind,
          by simp [stateHead, hkw, hname, ha, hl], hinner⟩

/-! ## The list around a place -/

/-- The statement whose list is open at a point. -/
def Point.listOwner? : Point → Option ListOwner
  | .listState owner _ | .listSeparator owner _ => some owner
  | _ => none

/-- Any token but a closing bracket leaves a list open. -/
theorem ParseStep.listOwner?_eq (h : ParseStep s t s') (ho : s.point.listOwner? = some owner)
    (hk : t.kind ≠ .rightBracket) : s'.point.listOwner? = some owner := by
  obtain ⟨blocks, body, point⟩ := s
  cases h with
  | move hm =>
      cases hm with
      | member _ | comma _ => exact ho
      | closeOpen ht | close ht => exact absurd ht hk
      | _ => cases ho
  | beginMark hp _ | endMark hp _ | finish hp _ | closeBlock _ hp _ =>
      rw [hp] at ho
      cases ho
  | openBlock hp _ => cases hp <;> cases ho

/-- **A list is left by its closing bracket only.** -/
theorem Runs.listOwner?_eq (hrun : Runs s ts s') (ho : s.point.listOwner? = some owner)
    (hk : .rightBracket ∉ ts.map Token.kind) : s'.point.listOwner? = some owner := by
  induction hrun with
  | nil => exact ho
  | cons hstep _ ih =>
      rw [List.map_cons, List.mem_cons, not_or] at hk
      exact ih (hstep.listOwner?_eq ho (Ne.symm hk.1)) hk.2

/-- An identifier, an arrow and a bracket begin the list of a transition. -/
theorem listOwner?_of_label {v : ParseState} {label a l : Token} (hlabel : ParseStep s label u)
    (hn : label.kind = .identifier) (harrow : ParseStep u a v) (ha : a.kind = .arrow)
    (hbracket : ParseStep v l s') (hl : l.kind = .leftBracket) :
    s'.point.listOwner? = some (.transition label.value) := by
  have hfirst := hlabel.moves (by rw [hn]; decide)
  have hsecond := harrow.moves (by rw [ha]; decide)
  have hthird := hbracket.moves (by rw [hl]; decide)
  -- Backwards: the bracket is that of a list, the arrow is before it, and an identifier before that.
  generalize s'.point = p at hthird ⊢
  generalize v.point = q at hthird hsecond
  generalize u.point = r at hsecond hfirst
  generalize s.point = o at hfirst
  cases hthird with
  | listBracket _ =>
      cases hsecond with
      | listArrow _ =>
          cases hfirst with
          | label _ _ => rfl
          | acceptWord hk =>
              rw [hn] at hk
              cases hk
  | @member _ owner _ hm =>
      rw [hl] at hm
      cases owner with
      | accept => cases hm
      | transition _ => rcases hm with hk | hk <;> cases hk
  | label _ hk =>
      rw [hl] at hk
      cases hk
  | _ hk =>
      rw [hl] at hk
      cases hk

/-- **Whether a list is a transition's** shows in the categories. -/
theorem withinTransition_iff (hrun : Runs .initial ts s) (hp : s.point = .listState owner states) :
    WithinTransition (ts.map Token.kind) ↔ ∃ label, owner = .transition label := by
  constructor
  · rintro ⟨outer, inner, hk, -, hinner⟩
    obtain ⟨hs, us, _, _, hhs, rfl, hsteps, hrest⟩ := hrun.split_of_map hk
    obtain ⟨label, hs, rfl, hn, hhs⟩ := List.map_eq_cons_iff.mp hhs
    obtain ⟨a, hs, rfl, ha, hhs⟩ := List.map_eq_cons_iff.mp hhs
    obtain ⟨l, rfl, hl⟩ := List.map_eq_singleton_iff.mp hhs
    obtain ⟨_, hlabel, hsteps⟩ := runs_cons_iff.mp hsteps
    obtain ⟨_, harrow, hbracket⟩ := runs_cons_iff.mp hsteps
    have hlist := listOwner?_of_label hlabel hn harrow ha (runs_singleton_iff.mp hbracket) hl
    have howner := hrest.listOwner?_eq hlist hinner
    rw [hp] at howner
    exact ⟨label.value, Option.some.inj howner⟩
  · rintro ⟨label, rfl⟩
    have hreads : Reads s ts := hrun.reads reads_initial
    obtain @⟨outer, body, _, -, -, hpending⟩ := hreads
    rw [hp] at hpending
    cases hpending with
    | @listFirst kw a l _ hkw ha hl =>
        obtain ⟨-, hn, -⟩ := hkw
        exact ⟨(outer ++ body).map Token.kind, [], by simp [hn, ha, hl], List.not_mem_nil,
          List.not_mem_nil⟩
    | @listNext kw a l c names _ _ hkw ha hl he hc =>
        obtain ⟨-, hn, -⟩ := hkw
        have hkinds : ∀ t ∈ names ++ [c], IsTarget t.kind ∨ t.kind = .comma :=
          List.forall_mem_append.mpr ⟨he.forall_kind, List.forall_mem_singleton.mpr (.inr hc)⟩
        have hno := not_mem_of_forall_kind hkinds
        exact ⟨(outer ++ body).map Token.kind, (names ++ [c]).map Token.kind,
          by simp [hn, ha, hl], fun hk => (hno _ hk).2.2.1 rfl, fun hk => (hno _ hk).2.2.2 rfl⟩

end StateDiagram

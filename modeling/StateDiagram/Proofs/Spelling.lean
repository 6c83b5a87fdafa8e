import StateDiagram.Pipeline
import StateDiagram.Proofs.Naming
import StateDiagram.Proofs.Nesting

/-!
# `Proofs.Spelling` — programs that a source can spell

Lexing looks at brackets and at the token before, parsing at the grammar; where a name stands they
must agree on what it is. They do: in every phrase of the grammar, classification gives each name the
category that the grammar has in its place. So a program can be written down, token by token, and the
source is read back as the program. What every program of a source satisfies — its names are legal,
its transitions stand in state blocks, its blocks are not nested too deeply — is thus all that is
needed for a program to have a source.

## Contents

* `WellFormed` — the conditions on names and transitions;
* `Derives.wellFormed` — a phrase of well spelled tokens satisfies them;
* `Context.allows`, `Placed` — the category that a name gets where it stands;
* `classified_iff_placed` — tokens have the categories that classification gives their texts;
* `Derives.placed` — it is the one that the grammar has there;
* `Statement.spelled`, `spelled` — the tokens of a statement, of a program;
* `derives_spelled` — they are well spelled, and the grammar derives the program from them;
* `program_of_tokens`, `program_eq_ok_iff` — a source is read through its tokens;
* `program_wellFormed` — the program of a source is well-formed;
* `program_spaced` — a well-formed program is read back from its spelling;
* `exists_source_iff` — exactly the well-formed programs of bounded height have a source.
-/

namespace StateDiagram

variable {inState : Bool} {ctx : Context} {ts us : List Token} {t : Token}

/-! ## Well-formed programs -/

mutual

/-- **The names of a statement are legal**, but for targets that lead back, and transitions stand in
    state blocks only. `inState` tells whether the statement itself stands in one. -/
def Statement.WellFormed (inState : Bool) : Statement → Prop
  | .beginMark | .endMark => True
  | .machine name body => IsLegal name ∧ StateDiagram.WellFormed false body
  | .start state => IsLegal state
  | .accept states => ∀ state ∈ states, IsLegal state
  | .stateDef name body => IsLegal name ∧ StateDiagram.WellFormed true body
  | .transition label targets =>
    inState = true ∧ IsLegal label ∧ ∀ target ∈ targets, IsLegal target ∨ target = loopTarget

/-- All of several statements are well-formed. -/
def WellFormed (inState : Bool) : List Statement → Prop
  | [] => True
  | s :: ss => s.WellFormed inState ∧ WellFormed inState ss

end

/-- A phrase is well-formed. -/
def Phrase.WellFormed (inState : Bool) : Phrase → Prop
  | one s => s.WellFormed inState
  | many ss => StateDiagram.WellFormed inState ss

/-- A name's token has a legal text. -/
theorem Token.IsSpelled.isLegal_of {k : Kind} (h : t.IsSpelled) (hk : t.kind = k)
    (hname : k.isName = true) : IsLegal t.value :=
  h.isLegal (hk ▸ hname)

/-- A category with one spelling gives its tokens this text. -/
theorem Token.IsSpelled.value_of {k : Kind} {text : String} (h : t.IsSpelled) (hk : t.kind = k)
    (hname : k.isName = false) (hone : ∀ p ∈ reserved, p.2 = k → p.1 = text) : t.value = text :=
  hone _ (mem_reserved (h.reservedKind?_eq (hk ▸ hname))) hk

/-- The names of a list are of the kind that its tokens are. -/
theorem Elements.forall_of {member : Kind → Prop} {P : String → Prop} {names : List String}
    (h : Elements member ts names) (hts : ∀ t ∈ ts, t.IsSpelled)
    (hP : ∀ t : Token, t.IsSpelled → member t.kind → P t.value) : ∀ name ∈ names, P name := by
  induction h with
  | last ht =>
      intro name hname
      rw [List.mem_singleton.mp hname]
      exact hP _ (hts _ List.mem_cons_self) ht
  | more ht _ _ ih =>
      intro name hname
      rcases List.mem_cons.mp hname with rfl | hname
      · exact hP _ (hts _ List.mem_cons_self) ht
      · exact ih (fun t ht => hts t (by simp [ht])) name hname

theorem Members.forall_of {member : Kind → Prop} {P : String → Prop} {names : List String}
    (h : Members member ts names) (hts : ∀ t ∈ ts, t.IsSpelled)
    (hP : ∀ t : Token, t.IsSpelled → member t.kind → P t.value) : ∀ name ∈ names, P name := by
  cases h with
  | empty => exact nofun
  | plain he => exact he.forall_of hts hP
  | trailing he _ => exact he.forall_of (fun t ht => hts t (by simp [ht])) hP

/-- **A phrase of well spelled tokens is well-formed.** -/
theorem Derives.wellFormed {phrase : Phrase} (h : Derives inState phrase ts)
    (hts : ∀ t ∈ ts, t.IsSpelled) : phrase.WellFormed inState := by
  -- The grammar fixes the category of each name, and the category what it can be spelled like.
  induction h with
  | beginMark _ => trivial
  | endMark _ => trivial
  | machine _ hname _ _ _ _ ih =>
      simp only [List.forall_mem_cons, List.forall_mem_append] at hts
      exact ⟨hts.2.1.isLegal_of hname rfl, ih hts.2.2.2.1⟩
  | stateDef _ hname _ _ _ _ _ ih =>
      simp only [List.forall_mem_cons, List.forall_mem_append] at hts
      exact ⟨hts.2.1.isLegal_of hname rfl, ih hts.2.2.2.2.1⟩
  | start _ _ hname _ =>
      simp only [List.forall_mem_cons] at hts
      exact hts.2.2.1.isLegal_of hname rfl
  | accept _ _ _ hlist _ _ =>
      simp only [List.forall_mem_cons, List.forall_mem_append] at hts
      exact hlist.forall_of hts.2.2.2.1 fun t ht hk => ht.isLegal_of hk rfl
  | transition hname _ _ hlist _ _ =>
      simp only [List.forall_mem_cons, List.forall_mem_append] at hts
      refine ⟨rfl, hts.1.isLegal_of hname rfl, ?_⟩
      refine Members.forall_of (P := fun name => IsLegal name ∨ name = loopTarget) hlist
        hts.2.2.2.1 fun t ht hk => ?_
      rcases hk with hk | hk
      · exact .inl (ht.isLegal_of hk rfl)
      · exact .inr (ht.value_of hk rfl (by decide))
  | nil => trivial
  | cons _ _ ih ih' =>
      rw [List.forall_mem_append] at hts
      exact ⟨ih hts.1, ih' hts.2⟩

/-! ## Categories by place -/

namespace Context

/-- The context after a token of a category, when the token is spelled as its category says. -/
def read (ctx : Context) (kind : Kind) : Context :=
  ⟨match kind with
    | .leftBracket => true
    | .rightBracket => false
    | _ => ctx.inBrackets, some kind⟩

/-- Whether classification can give the category here: of names, only one of the two is possible. -/
def allows (ctx : Context) : Kind → Prop
  | .identifier => ctx.wantsState = false
  | .state => ctx.wantsState = true
  | _ => True

end Context

/-- The context after several tokens. -/
def Context.readAll (ctx : Context) (ts : List Token) : Context :=
  ts.foldl (fun ctx t => ctx.read t.kind) ctx

/-- Every token has a category that classification can give where it stands. -/
def Placed : Context → List Token → Prop
  | _, [] => True
  | ctx, t :: ts => ctx.allows t.kind ∧ Placed (ctx.read t.kind) ts

@[simp] theorem readAll_nil : ctx.readAll [] = ctx := rfl

@[simp] theorem readAll_cons : ctx.readAll (t :: ts) = (ctx.read t.kind).readAll ts := rfl

@[simp] theorem readAll_append : ctx.readAll (ts ++ us) = (ctx.readAll ts).readAll us :=
  List.foldl_append

@[simp] theorem placed_nil : Placed ctx [] := trivial

@[simp] theorem placed_cons :
    Placed ctx (t :: ts) ↔ ctx.allows t.kind ∧ Placed (ctx.read t.kind) ts := Iff.rfl

@[simp] theorem placed_append :
    Placed ctx (ts ++ us) ↔ Placed ctx ts ∧ Placed (ctx.readAll ts) us := by
  induction ts generalizing ctx with
  | nil => simp
  | cons t ts ih => simp [ih, and_assoc]

/-- Square brackets are spelled as such, and nothing else is. -/
theorem Token.IsSpelled.value_eq_bracket_iff (h : t.IsSpelled) :
    (t.value = "[" ↔ t.kind = .leftBracket) ∧ (t.value = "]" ↔ t.kind = .rightBracket) := by
  cases hname : t.kind.isName with
  | false =>
      exact (by decide : ∀ p ∈ reserved,
        (p.1 = "[" ↔ p.2 = .leftBracket) ∧ (p.1 = "]" ↔ p.2 = .rightBracket)) _
        (mem_reserved (h.reservedKind?_eq hname))
  | true =>
      have htext := (h.isLegal hname).isNameText
      refine ⟨⟨?_, ?_⟩, ⟨?_, ?_⟩⟩ <;> intro heq
      · rw [heq] at htext
        exact absurd htext (by decide)
      · rw [heq] at hname
        exact absurd hname (by decide)
      · rw [heq] at htext
        exact absurd htext (by decide)
      · rw [heq] at hname
        exact absurd hname (by decide)

/-- The context before a well spelled token is classified has its brackets as after it. -/
theorem Token.IsSpelled.meet_eq (h : t.IsSpelled) :
    ctx.meet t.value = ⟨(ctx.read t.kind).inBrackets, ctx.previous⟩ := by
  obtain ⟨hleft, hright⟩ := h.value_eq_bracket_iff
  unfold Context.meet Context.read
  split
  next hl => rw [hleft.mp hl]
  next hl =>
    split
    next hr => rw [hright.mp hr]
    next hr =>
      rw [hleft] at hl
      rw [hright] at hr
      split
      next hk => exact absurd hk hl
      next hk => exact absurd hk hr
      next => rfl

theorem Token.IsSpelled.meet_follow (h : t.IsSpelled) :
    (ctx.meet t.value).follow t.kind = ctx.read t.kind := by
  rw [h.meet_eq]
  rfl

/-- A legal name is classified by what is wanted where it stands. -/
theorem IsLegal.classify_eq {name : String} (h : IsLegal name) (ctx : Context) :
    classify ctx name = some (if ctx.wantsState then .state else .identifier) := by
  unfold classify
  rw [h.reservedKind?_eq_none, h.isNameText]
  rfl

/-- A category that is no bracket leaves the brackets as they are. -/
theorem Context.inBrackets_read {k : Kind} (hl : k ≠ .leftBracket) (hr : k ≠ .rightBracket) :
    (ctx.read k).inBrackets = ctx.inBrackets := by
  cases k with
  | leftBracket => exact absurd rfl hl
  | rightBracket => exact absurd rfl hr
  | _ => rfl

/-- A category that is no name is possible everywhere. -/
theorem Context.allows_of_isName {k : Kind} (h : k.isName = false) : ctx.allows k := by
  cases k with
  | state | identifier => cases h
  | _ => trivial

/-- Of the categories of names, the one that is wanted is possible. -/
theorem Context.allows_iff {k : Kind} (h : k.isName = true) :
    ctx.allows k ↔ (if ctx.wantsState then .state else .identifier) = k := by
  cases k with
  | state => cases hwants : ctx.wantsState <;> simp [Context.allows, hwants]
  | identifier => cases hwants : ctx.wantsState <;> simp [Context.allows, hwants]
  | _ => cases h

/-- **A well spelled token is classified as such** exactly where its category is possible. -/
theorem Token.IsSpelled.classify_eq_iff (h : t.IsSpelled) :
    classify (ctx.meet t.value) t.value = some t.kind ↔ ctx.allows t.kind := by
  cases hname : t.kind.isName with
  | false =>
      exact iff_of_true (classify_of_reserved (h.reservedKind?_eq hname) _)
        (Context.allows_of_isName hname)
  | true =>
      have hbrackets : (ctx.read t.kind).inBrackets = ctx.inBrackets :=
        Context.inBrackets_read (fun hk => by rw [hk] at hname; cases hname)
          (fun hk => by rw [hk] at hname; cases hname)
      rw [(h.isLegal hname).classify_eq, h.meet_eq, hbrackets, Option.some.injEq,
        Context.allows_iff hname]

/-- **Well spelled tokens are classified as such** exactly if each is in a place for its category. -/
theorem classified_iff_placed (hts : ∀ t ∈ ts, t.IsSpelled) :
    Classified ctx ts ↔ Placed ctx ts := by
  induction ts generalizing ctx with
  | nil => exact Iff.rfl
  | cons t ts ih =>
      rw [List.forall_mem_cons] at hts
      rw [Classified, Placed, hts.1.classify_eq_iff, hts.1.meet_follow, ih hts.2]

/-- Between the brackets of a list every name is a state. -/
theorem Elements.placed {member : Kind → Prop} {names : List String}
    (h : Elements member ts names) (hm : ∀ k, member k → IsTarget k) (ctx : Context)
    (hctx : ctx.inBrackets = true) :
    Placed ctx ts ∧ (ctx.readAll ts).inBrackets = true := by
  induction h generalizing ctx with
  | @last t ht =>
      rcases hm _ ht with hk | hk <;>
        simp [hk, hctx, Context.read, Context.allows, Context.wantsState]
  | @more t c ts names ht hc _ ih =>
      have hrest := ih ((ctx.read t.kind).read c.kind)
        (by rcases hm _ ht with hk | hk <;> simp [hk, hc, hctx, Context.read])
      refine ⟨⟨?_, ?_, hrest.1⟩, hrest.2⟩
      · rcases hm _ ht with hk | hk <;> simp [hk, hctx, Context.allows, Context.wantsState]
      · simp [hc, Context.allows]

theorem Members.placed {member : Kind → Prop} {names : List String}
    (h : Members member ts names) (hm : ∀ k, member k → IsTarget k) (ctx : Context)
    (hctx : ctx.inBrackets = true) :
    Placed ctx ts ∧ (ctx.readAll ts).inBrackets = true := by
  cases h with
  | empty => exact ⟨trivial, hctx⟩
  | plain he => exact he.placed hm ctx hctx
  | @trailing ts names c he hc =>
      obtain ⟨hplaced, hopen⟩ := he.placed hm ctx hctx
      simp [hplaced, hopen, hc, Context.read, Context.allows]

/-- Outside of lists, where no state is wanted. -/
theorem Context.inBrackets_of_wantsState (h : ctx.wantsState = false) :
    ctx.inBrackets = false := by
  simp only [Context.wantsState, Bool.or_eq_false_iff] at h
  exact h.1.1

/-- After the end of a block or of a list, and a semicolon, names are declared. -/
theorem placed_end {r e : Token}
    (hr : r.kind = .rightBrace ∧ ctx.inBrackets = false ∨ r.kind = .rightBracket)
    (he : e.kind = .semicolon) :
    Placed ctx [r, e] ∧ (ctx.readAll [r, e]).wantsState = false := by
  rcases hr with ⟨hr, hctx⟩ | hr
  · simp [hr, he, hctx, Context.read, Context.allows, Context.wantsState]
  · simp [hr, he, Context.read, Context.allows, Context.wantsState]

/-- **Where a phrase begins, names are declared**, and where it ends too; within it, classification
    gives every name the category that the grammar has in its place. -/
theorem Derives.placed {phrase : Phrase} (h : Derives inState phrase ts) (ctx : Context)
    (hctx : ctx.wantsState = false) :
    Placed ctx ts ∧ (ctx.readAll ts).wantsState = false := by
  -- Every statement ends with a semicolon outside of lists, which is how it began.
  induction h generalizing ctx with
  | beginMark hk | endMark hk =>
      have hopen := Context.inBrackets_of_wantsState hctx
      simp [hk, hopen, Context.read, Context.allows, Context.wantsState]
  | machine hkw hname hl _ hr he ih =>
      have hopen := Context.inBrackets_of_wantsState hctx
      have hbody := ih ⟨ctx.inBrackets, some .leftBrace⟩
        (by simp [hopen, Context.wantsState])
      have hend := placed_end (.inl ⟨hr, Context.inBrackets_of_wantsState hbody.2⟩) he
      simp only [placed_cons, readAll_cons, placed_append, readAll_append, hkw, hname, hl]
      refine ⟨⟨trivial, ?_, trivial, hbody.1, hend.1⟩, hend.2⟩
      simp [hopen, Context.read, Context.allows, Context.wantsState]
  | stateDef hkw hname ha hl _ hr he ih =>
      have hopen := Context.inBrackets_of_wantsState hctx
      have hbody := ih ⟨ctx.inBrackets, some .leftBrace⟩
        (by simp [hopen, Context.wantsState])
      have hend := placed_end (.inl ⟨hr, Context.inBrackets_of_wantsState hbody.2⟩) he
      simp only [placed_cons, readAll_cons, placed_append, readAll_append, hkw, hname, ha, hl]
      refine ⟨⟨trivial, ?_, trivial, trivial, hbody.1, hend.1⟩, hend.2⟩
      simp [hopen, Context.read, Context.allows, Context.wantsState]
  | start hkw ha hname he =>
      have hopen := Context.inBrackets_of_wantsState hctx
      simp [hkw, ha, hname, he, hopen, Context.read, Context.allows, Context.wantsState]
  | accept hkw ha hl hlist hr he =>
      have hmembers := hlist.placed (fun _ => .inl) ⟨true, some .leftBracket⟩ rfl
      simp only [placed_cons, readAll_cons, placed_append, readAll_append, hkw, ha, hl]
      exact ⟨⟨trivial, trivial, trivial, hmembers.1, (placed_end (.inr hr) he).1⟩,
        (placed_end (.inr hr) he).2⟩
  | transition hname ha hl hlist hr he =>
      have hmembers := hlist.placed (fun _ => id) ⟨true, some .leftBracket⟩ rfl
      simp only [placed_cons, readAll_cons, placed_append, readAll_append, hname, ha, hl]
      exact ⟨⟨hctx, trivial, trivial, hmembers.1, (placed_end (.inr hr) he).1⟩,
        (placed_end (.inr hr) he).2⟩
  | nil => exact ⟨trivial, hctx⟩
  | cons _ _ ih ih' =>
      obtain ⟨hfirst, hmid⟩ := ih ctx hctx
      obtain ⟨hrest, hlast⟩ := ih' _ hmid
      rw [placed_append, readAll_append]
      exact ⟨⟨hfirst, hrest⟩, hlast⟩

/-! ## Spelling a program out -/

/-- A spelling of a category; empty for the two categories of names. -/
def Kind.spelling (kind : Kind) : String :=
  match reserved.find? (·.2 == kind) with
  | some (text, _) => text
  | none => ""

/-- A token of a category and a text, at no place in particular. -/
def Token.written (kind : Kind) (text : String) : Token :=
  ⟨kind, text, .origin⟩

theorem kind_written (kind : Kind) (text : String) : (Token.written kind text).kind = kind := rfl

/-- The token of a category that is no name. -/
def Token.fixed (kind : Kind) : Token :=
  .written kind kind.spelling

/-- The tokens of a list of names, of the category that each has in the list. -/
def listed (kindOf : String → Kind) (names : List String) : List Token :=
  (names.map fun name => .written (kindOf name) name).intersperse (.fixed .comma)

/-- The category of a target. -/
def targetKind (target : String) : Kind :=
  if isLoop target then .self else .state

mutual

/-- The tokens of a statement. -/
def Statement.spelled : Statement → List Token
  | .beginMark => [.fixed .beginMark]
  | .endMark => [.fixed .endMark]
  | .machine name body =>
    .fixed .machine :: Token.written .identifier name :: .fixed .leftBrace ::
      (spelled body ++ [.fixed .rightBrace, .fixed .semicolon])
  | .start state => [.fixed .start, .fixed .arrow, Token.written .state state, .fixed .semicolon]
  | .accept states =>
    .fixed .accept :: .fixed .arrow :: .fixed .leftBracket ::
      (listed (fun _ => .state) states ++ [.fixed .rightBracket, .fixed .semicolon])
  | .stateDef name body =>
    .fixed .stateDef :: Token.written .identifier name :: .fixed .arrow :: .fixed .leftBrace ::
      (spelled body ++ [.fixed .rightBrace, .fixed .semicolon])
  | .transition label targets =>
    Token.written .identifier label :: .fixed .arrow :: .fixed .leftBracket ::
      (listed targetKind targets ++ [.fixed .rightBracket, .fixed .semicolon])

/-- The tokens of several statements. -/
def spelled : List Statement → List Token
  | [] => []
  | s :: ss => s.spelled ++ spelled ss

end

/-- The token of a category that is no name has a spelling of its category. -/
theorem isSpelled_fixed {kind : Kind} (h : kind.isName = false) : (Token.fixed kind).IsSpelled := by
  refine ⟨fun hname => ?_, fun _ => ?_⟩
  · rw [show (Token.fixed kind).kind = kind from rfl, h] at hname
    exact nomatch hname
  · revert h
    cases kind <;> decide

/-- The token of a legal name is well spelled. -/
theorem isSpelled_name {kind : Kind} {name : String} (hname : IsLegal name)
    (h : kind.isName = true) : (Token.written kind name).IsSpelled := by
  refine ⟨fun _ => hname, fun hk => ?_⟩
  rw [show kind.isName = false from hk] at h
  exact nomatch h

/-- The token of a target is well spelled. -/
theorem isSpelled_target {target : String} (h : IsLegal target ∨ target = loopTarget) :
    (Token.written (targetKind target) target).IsSpelled := by
  unfold targetKind
  split
  next hloop =>
    obtain rfl : target = loopTarget := by simpa [isLoop] using hloop
    exact ⟨nofun, fun _ => by decide⟩
  next hloop =>
    rcases h with h | rfl
    · exact isSpelled_name h rfl
    · exact absurd (by decide) hloop

/-- One or more names of the right categories are the elements of a list. -/
theorem elements_listed {member : Kind → Prop} {kindOf : String → Kind} {name : String}
    {names : List String} (h : ∀ name, member (kindOf name)) :
    Elements member (listed kindOf (name :: names)) (name :: names) := by
  induction names generalizing name with
  | nil => exact .last (t := .written (kindOf name) name) (h name)
  | cons next names ih => exact .more (t := .written (kindOf name) name) (h name) rfl ih

theorem members_listed {member : Kind → Prop} {kindOf : String → Kind} (names : List String)
    (h : ∀ name, member (kindOf name)) : Members member (listed kindOf names) names := by
  cases names with
  | nil => exact .empty
  | cons name names => exact .plain (elements_listed h)

/-- A list of names is well spelled if each of its names is. -/
theorem isSpelled_listed {kindOf : String → Kind} {names : List String}
    (h : ∀ name ∈ names, (Token.written (kindOf name) name).IsSpelled) :
    ∀ t ∈ listed kindOf names, t.IsSpelled := by
  induction names with
  | nil => exact nofun
  | cons name names ih =>
      rw [List.forall_mem_cons] at h
      cases names with
      | nil => exact List.forall_mem_singleton.mpr h.1
      | cons next names =>
          refine List.forall_mem_cons.mpr ⟨h.1, ?_⟩
          exact List.forall_mem_cons.mpr ⟨isSpelled_fixed rfl, ih h.2⟩

theorem isTarget_targetKind (target : String) : IsTarget (targetKind target) := by
  unfold targetKind
  split
  · exact .inr rfl
  · exact .inl rfl

mutual

/-- **A well-formed statement is derived from its tokens**, and these are well spelled. -/
theorem Statement.derives_spelled (s : Statement) {inState : Bool} (h : s.WellFormed inState) :
    Derives inState (.one s) s.spelled ∧ ∀ t ∈ s.spelled, t.IsSpelled := by
  cases s with
  | beginMark => exact ⟨.beginMark rfl, List.forall_mem_singleton.mpr (isSpelled_fixed rfl)⟩
  | endMark => exact ⟨.endMark rfl, List.forall_mem_singleton.mpr (isSpelled_fixed rfl)⟩
  | machine name body =>
      obtain ⟨hname, hbody⟩ := h
      obtain ⟨hderives, hspelled⟩ := derives_spelled body hbody
      refine ⟨.machine rfl (kind_written .identifier name) rfl hderives rfl rfl, ?_⟩
      simp only [Statement.spelled, List.forall_mem_cons, List.forall_mem_append]
      exact ⟨isSpelled_fixed rfl, isSpelled_name hname rfl, isSpelled_fixed rfl, hspelled,
        isSpelled_fixed rfl, isSpelled_fixed rfl, nofun⟩
  | start state =>
      refine ⟨.start rfl rfl (kind_written .state state) rfl, ?_⟩
      simp only [Statement.spelled, List.forall_mem_cons]
      exact ⟨isSpelled_fixed rfl, isSpelled_fixed rfl, isSpelled_name h rfl, isSpelled_fixed rfl,
        nofun⟩
  | accept states =>
      have hlist : Members IsState (listed (fun _ => .state) states) states :=
        members_listed states fun _ => rfl
      refine ⟨.accept rfl rfl rfl hlist rfl rfl, ?_⟩
      simp only [Statement.spelled, List.forall_mem_cons, List.forall_mem_append]
      exact ⟨isSpelled_fixed rfl, isSpelled_fixed rfl, isSpelled_fixed rfl,
        isSpelled_listed fun name hname => isSpelled_name (h name hname) rfl,
        isSpelled_fixed rfl, isSpelled_fixed rfl, nofun⟩
  | stateDef name body =>
      obtain ⟨hname, hbody⟩ := h
      obtain ⟨hderives, hspelled⟩ := derives_spelled body hbody
      refine ⟨.stateDef rfl (kind_written .identifier name) rfl rfl hderives rfl rfl, ?_⟩
      simp only [Statement.spelled, List.forall_mem_cons, List.forall_mem_append]
      exact ⟨isSpelled_fixed rfl, isSpelled_name hname rfl, isSpelled_fixed rfl,
        isSpelled_fixed rfl, hspelled, isSpelled_fixed rfl, isSpelled_fixed rfl, nofun⟩
  | transition label targets =>
      obtain ⟨rfl, hlabel, htargets⟩ := h
      have hlist := members_listed targets isTarget_targetKind
      refine ⟨.transition (kind_written .identifier label) rfl rfl hlist rfl rfl, ?_⟩
      simp only [Statement.spelled, List.forall_mem_cons, List.forall_mem_append]
      exact ⟨isSpelled_name hlabel rfl, isSpelled_fixed rfl, isSpelled_fixed rfl,
        isSpelled_listed fun target htarget => isSpelled_target (htargets target htarget),
        isSpelled_fixed rfl, isSpelled_fixed rfl, nofun⟩

theorem derives_spelled (ss : List Statement) {inState : Bool} (h : WellFormed inState ss) :
    Derives inState (.many ss) (spelled ss) ∧ ∀ t ∈ spelled ss, t.IsSpelled := by
  cases ss with
  | nil => exact ⟨.nil, nofun⟩
  | cons s ss =>
      obtain ⟨hfirst, hspelled⟩ := s.derives_spelled h.1
      obtain ⟨hrest, hspelled'⟩ := derives_spelled ss h.2
      exact ⟨.cons hfirst hrest, List.forall_mem_append.mpr ⟨hspelled, hspelled'⟩⟩

end

/-! ## The programs of sources -/

/-- A source without tokens has a lexical error. -/
theorem program_of_lexError {source : String} {e : LexError} (h : tokens source = .error e) :
    program source = .error (.lex e) := by
  rw [program, h]

/-- A source with tokens is read through these. -/
theorem program_of_tokens {source : String} (h : tokens source = .ok ts) :
    program source = (parse ts).mapError .syntaxError := by
  rw [program, h]

/-- The program of a source is that of its tokens. -/
theorem program_eq_ok_iff {source : String} {p : List Statement} :
    program source = .ok p ↔ ∃ ts, tokens source = .ok ts ∧ parse ts = .ok p := by
  cases htokens : tokens source with
  | error e => simp [program_of_lexError htokens]
  | ok ts => cases hparse : parse ts <;> simp [program_of_tokens htokens, Except.mapError, hparse]

/-- The text of a source is that of its program's graphs. -/
theorem compile_eq_ok_iff {layout : Layout} {source text : String} :
    compile layout source = .ok text ↔ ∃ p, program source = .ok p ∧ dot layout p = text := by
  unfold compile
  cases program source <;> simp [Except.map]

/-- **The program of a source is well-formed**, and not too high. -/
theorem program_wellFormed {source : String} {p : List Statement} (h : program source = .ok p) :
    WellFormed false p ∧ height p ≤ 256 := by
  obtain ⟨ts, hts, hparse⟩ := program_eq_ok_iff.mp h
  obtain ⟨hderives, hheight⟩ := parse_eq_ok_iff.mp hparse
  exact ⟨hderives.wellFormed (isSpelled_of_mem_tokens hts), hheight⟩

/-- **Well-formed programs can be written down**: their tokens, with a space after each, are read back
    as the program. -/
theorem program_spaced {p : List Statement} (h : WellFormed false p) (hheight : height p ≤ 256) :
    program (String.ofList (spaced ((spelled p).map Token.value))) = .ok p := by
  obtain ⟨hderives, hspelled⟩ := derives_spelled p h
  have htexts : (lexemes (String.ofList (spaced ((spelled p).map Token.value)))).map Lexeme.text =
      (spelled p).map Token.value := by
    unfold lexemes
    rw [String.toList_ofList]
    apply map_text_lexemesFrom_spaced
    intro text htext
    obtain ⟨t, ht, rfl⟩ := List.mem_map.mp htext
    exact (hspelled t ht).separable
  -- The texts of the tokens are read back, and each gets its category back in its place.
  have hplaced := (hderives.placed .empty rfl).1
  obtain ⟨ts, hts, hkinds, hvalues⟩ := exists_tokensFrom ((classified_iff_placed hspelled).mpr hplaced) htexts
  obtain ⟨phrase, -, hderives', heq⟩ := hderives.relabel hkinds
  rw [heq hvalues] at hderives'
  exact program_eq_ok_iff.mpr ⟨ts, hts, parse_eq_ok_iff.mpr ⟨hderives', hheight⟩⟩

/-- A well-formed program of bounded height has a source. -/
theorem exists_source {p : List Statement} (h : WellFormed false p) (hheight : height p ≤ 256) :
    ∃ source, program source = .ok p :=
  ⟨_, program_spaced h hheight⟩

/-- **The programs that sources have** are exactly the well-formed ones of bounded height: all names
    are legal but for targets that lead back, transitions stand directly in state blocks, and no chain
    of blocks within blocks is longer than 256. -/
theorem exists_source_iff (p : List Statement) :
    (∃ source, program source = .ok p) ↔ WellFormed false p ∧ height p ≤ 256 :=
  ⟨fun ⟨_, h⟩ => program_wellFormed h, fun ⟨h, hheight⟩ => exists_source h hheight⟩

end StateDiagram

import StateDiagram.Proofs.NameKinds
import Mathlib.Data.List.Induction

/-!
# `Proofs.References` — which names are references

The category of a token can be told from the tokens before it. A reserved spelling has its own; a name
is a state if a square bracket before it is still open, or if the token right before it is `START` or an
arrow, and an identifier otherwise.

Classification goes through the tokens with two memories, the last square bracket and the last category.
Each token changes them in a way that its text and its category tell, so what they hold after any number
of tokens can be said of these tokens alone.

## Contents

* `LeavesListOpen`, `leavesListOpen_concat` — a bracket that is open, and what one token more does to it;
* `Token.IsSpelled.inBrackets_read_iff`, `inBrackets_readAll_iff` — the first memory;
* `FollowsMark`, `previous_readAll` — the second;
* `wantsState_readAll_iff` — where a state is wanted;
* `kind_of_mem_tokens` — the category of each token of a source.
-/

namespace StateDiagram

variable {ctx : Context} {t : Token} {ts : List Token}

/-! ## Open brackets -/

/-- **Tokens leave a list open**: after one of them that is an opening bracket there is no closing one. -/
def LeavesListOpen (ts : List Token) : Prop :=
  ∃ earlier bracket later, ts = earlier ++ bracket :: later ∧ bracket.value = "[" ∧
    ∀ u ∈ later, u.value ≠ "]"

/-- An opening bracket leaves a list open, and any other token but a closing one leaves it as it was. -/
theorem leavesListOpen_concat :
    LeavesListOpen (ts ++ [t]) ↔ t.value = "[" ∨ LeavesListOpen ts ∧ t.value ≠ "]" := by
  constructor
  · rintro ⟨earlier, bracket, later, hsplit, hbracket, hlater⟩
    rcases List.eq_nil_or_concat' later with rfl | ⟨later, u, rfl⟩
    · obtain rfl : t = bracket := List.singleton_inj.mp (List.append_inj' hsplit rfl).2
      exact .inl hbracket
    · rw [← List.cons_append, ← List.append_assoc] at hsplit
      obtain ⟨rfl, hlast⟩ := List.append_inj' hsplit rfl
      obtain rfl := List.singleton_inj.mp hlast
      rw [List.forall_mem_append, List.forall_mem_singleton] at hlater
      exact .inr ⟨⟨earlier, bracket, later, rfl, hbracket, hlater.1⟩, hlater.2⟩
  · rintro (hbracket | ⟨⟨earlier, bracket, later, rfl, hbracket, hlater⟩, ht⟩)
    · exact ⟨ts, t, [], rfl, hbracket, List.forall_mem_nil _⟩
    · refine ⟨earlier, bracket, later ++ [t], by simp, hbracket, ?_⟩
      rw [List.forall_mem_append, List.forall_mem_singleton]
      exact ⟨hlater, ht⟩

/-- **What a token does to the open bracket** that classification remembers. -/
theorem Token.IsSpelled.inBrackets_read_iff (h : t.IsSpelled) :
    (ctx.read t.kind).inBrackets = true ↔
      t.value = "[" ∨ ctx.inBrackets = true ∧ t.value ≠ "]" := by
  obtain ⟨hleft, hright⟩ := h.value_eq_bracket_iff
  rw [hleft, ne_eq, hright]
  cases hk : t.kind <;> simp [Context.read]

/-- **A bracket is remembered as open** exactly if the tokens so far leave a list open. -/
theorem inBrackets_readAll_iff (hts : ∀ t ∈ ts, t.IsSpelled) :
    (Context.empty.readAll ts).inBrackets = true ↔ LeavesListOpen ts := by
  -- The last token decides first, so the induction is from the end.
  induction ts using List.reverseRecOn with
  | nil => simp [Context.empty, LeavesListOpen]
  | append_singleton ts t ih =>
      rw [List.forall_mem_append, List.forall_mem_singleton] at hts
      rw [readAll_append, readAll_cons, readAll_nil, hts.2.inBrackets_read_iff, ih hts.1,
        leavesListOpen_concat]

/-! ## Marks of references -/

/-- **Tokens end in the mark of a reference**: `START` or an arrow. -/
def FollowsMark (ts : List Token) : Prop :=
  ∃ t, ts.getLast? = some t ∧ (t.kind = .start ∨ t.kind = .arrow)

/-- **The category that is remembered** is that of the last token. -/
theorem previous_readAll (ts : List Token) :
    (Context.empty.readAll ts).previous = ts.getLast?.map Token.kind := by
  induction ts using List.reverseRecOn with
  | nil => rfl
  | append_singleton ts t =>
      rw [readAll_append, readAll_cons, readAll_nil, List.getLast?_concat]
      rfl

/-! ## Categories -/

/-- **A state is wanted** in a list that is open, and after the mark of a reference. -/
theorem wantsState_readAll_iff (hts : ∀ t ∈ ts, t.IsSpelled) :
    (Context.empty.readAll ts).wantsState = true ↔ LeavesListOpen ts ∨ FollowsMark ts := by
  unfold Context.wantsState
  rw [previous_readAll, Bool.or_eq_true, Bool.or_eq_true, inBrackets_readAll_iff hts, or_assoc]
  cases hlast : ts.getLast? <;> simp [FollowsMark, hlast]

/-- **The category of each token of a source**, told by the tokens before it. A reserved spelling has its
    category in the table, wherever it stands. Any other token is a state exactly if a list is open before
    it or the token before it is the mark of a reference, and is an identifier otherwise. -/
theorem kind_of_mem_tokens (source : String) (ts : List Token) (h : tokens source = .ok ts)
    (before : List Token) (t : Token) (after : List Token) (hsplit : ts = before ++ t :: after) :
    (∀ kind, reservedKind? t.value = some kind → t.kind = kind) ∧
    (reservedKind? t.value = none →
      (t.kind = .state ↔ LeavesListOpen before ∨ FollowsMark before) ∧
      (¬ (LeavesListOpen before ∨ FollowsMark before) → t.kind = .identifier)) := by
  have hspelled := isSpelled_of_mem_tokens h
  have hplaced := placed_of_tokens h
  subst hsplit
  rw [List.forall_mem_append, List.forall_mem_cons] at hspelled
  rw [placed_append, placed_cons] at hplaced
  obtain ⟨hbefore, ht, -⟩ := hspelled
  have hallows : (Context.empty.readAll before).allows t.kind := hplaced.2.1
  rw [← wantsState_readAll_iff hbefore]
  cases hname : t.kind.isName with
  | false =>
      rw [ht.reservedKind?_eq hname]
      exact ⟨fun kind hkind => Option.some.inj hkind, nofun⟩
  | true =>
      rw [(ht.isLegal hname).reservedKind?_eq_none]
      refine ⟨nofun, fun _ => ?_⟩
      -- Of the two categories of names, the one that is wanted is the token's.
      rw [Context.allows_iff hname] at hallows
      rw [← hallows]
      cases (Context.empty.readAll before).wantsState <;> simp

/-- A name after a keyword, in brackets that do not nest: the second opening bracket leaves the list open,
    and the name is a state; after the one closing bracket the list is not open any more, and the next
    name is an identifier. -/
theorem kind_of_mem_tokens_brackets :
    let source := "[ a [ -> END b ] c"
    let before : List Token := [⟨.leftBracket, "[", ⟨1, 1⟩⟩, ⟨.state, "a", ⟨1, 3⟩⟩,
      ⟨.leftBracket, "[", ⟨1, 5⟩⟩, ⟨.arrow, "->", ⟨1, 7⟩⟩, ⟨.endMark, "END", ⟨1, 10⟩⟩]
    let b : Token := ⟨.state, "b", ⟨1, 14⟩⟩
    let bracket : Token := ⟨.rightBracket, "]", ⟨1, 16⟩⟩
    let c : Token := ⟨.identifier, "c", ⟨1, 18⟩⟩
    tokens source = .ok (before ++ b :: [bracket, c]) ∧
      (LeavesListOpen before ∨ FollowsMark before) ∧
      ¬ (LeavesListOpen (before ++ [b, bracket]) ∨ FollowsMark (before ++ [b, bracket])) := by
  intro source before b bracket c
  have htokens : tokens source = .ok (before ++ b :: [bracket, c]) := by decide +kernel
  obtain ⟨-, hb⟩ := kind_of_mem_tokens source _ htokens before b [bracket, c] rfl
  obtain ⟨-, hc⟩ := kind_of_mem_tokens source _ htokens (before ++ [b, bracket]) c [] rfl
  refine ⟨htokens, (hb (by decide)).1.mp rfl, fun hwants => ?_⟩
  cases (hc (by decide)).1.mpr hwants

end StateDiagram

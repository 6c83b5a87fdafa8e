import StateDiagram.Proofs.GraphView

/-!
# `Proofs.GraphEdits` — changes that graphs do not show

The text of a program's graphs depends on less than the program. It shows the machines at the top level,
in these the start states, the accepting states and the state blocks, and in these the transitions.
Everything else can be deleted, a target that leads back can be named, and blocks, transitions and lists
can be cut in two, and the text stays as it is, for any layout and whatever texts the names are.

How much is shown of a statement depends on where it stands, so a change is told together with a place:
the top level, the block of a machine there, the block of a state in such a machine, or any deeper block.
What graphs show in a place is a list that grows statement by statement, so a change of some statements
of a block is a change of what they contribute, and no other.

## Contents

* `Place`, `Place.inMachine`, `Place.inState` — how much graphs show of a list of statements;
* `Edit` — the changes, each in its place, and in any block below it;
* `SameView` — two lists of statements show the same in a place;
* `SameView.within`, `SameView.inMachine`, `SameView.inState` — in longer lists, and in the block around;
* `Edit.sameView` — every change leaves what is shown as it was;
* `dot_eq_of_edit` — so it leaves the text as it was.
-/

namespace StateDiagram

/-! ## Changes in their places -/

/-- Where a list of statements stands, as far as graphs tell. -/
inductive Place where
  /-- The program itself. -/
  | top
  /-- The block of a machine at the top level. -/
  | machine
  /-- The block of a state in such a machine. -/
  | state (name : String)
  /-- Any other block. -/
  | hidden

namespace Place

/-- The place of a machine's block. -/
def inMachine : Place → Place
  | top => machine
  | _ => hidden

/-- The place of a state's block. -/
def inState (name : String) : Place → Place
  | machine => state name
  | _ => hidden

end Place

/-- **The changes that graphs do not show.** `Edit place p q`: the statements `q` come from `p`, which
    stand in the given place, by one change. -/
inductive Edit : Place → List Statement → List Statement → Prop where
  /-- At the top level all but machines can be deleted. -/
  | dropOutside {s : Statement} : (∀ name body, s ≠ .machine name body) → Edit .top [s] []
  /-- In a machine, markers, transitions and other machines can be deleted. -/
  | dropBegin : Edit .machine [.beginMark] []
  | dropEnd : Edit .machine [.endMark] []
  | dropTransition (label : String) (targets : List String) :
      Edit .machine [.transition label targets] []
  | dropMachine (name : String) (body : List Statement) : Edit .machine [.machine name body] []
  /-- In the block of a state all but transitions can be deleted. -/
  | dropBeside {name : String} {s : Statement} :
      (∀ label targets, s ≠ .transition label targets) → Edit (.state name) [s] []
  /-- There, a target that leads back can be named. -/
  | nameLoop {name : String} (label : String) (before after : List String) :
      Edit (.state name) [.transition label (before ++ loopTarget :: after)]
        [.transition label (before ++ name :: after)]
  /-- In any place, a block of a state can be cut in two, -/
  | splitState {place : Place} (name : String) (before after : List Statement) :
      Edit place [.stateDef name (before ++ after)] [.stateDef name before, .stateDef name after]
  /-- and a transition, -/
  | splitTransition {place : Place} (label : String) (before after : List String) :
      Edit place [.transition label (before ++ after)]
        [.transition label before, .transition label after]
  /-- and a list of accepting states. -/
  | splitAccept {place : Place} (before after : List String) :
      Edit place [.accept (before ++ after)] [.accept before, .accept after]
  /-- What is changed may stand between other statements, -/
  | within {place : Place} {p q : List Statement} (before after : List Statement) :
      Edit place p q → Edit place (before ++ p ++ after) (before ++ q ++ after)
  /-- and in the block of a machine -/
  | inMachine {place : Place} {p q : List Statement} (name : String) :
      Edit place.inMachine p q → Edit place [.machine name p] [.machine name q]
  /-- or of a state. -/
  | inState {place : Place} {p q : List Statement} (name : String) :
      Edit (place.inState name) p q → Edit place [.stateDef name p] [.stateDef name q]

/-! ## What graphs show -/

/-- **Two lists of statements show the same** in a place: the same graphs, items or edges. -/
def SameView : Place → List Statement → List Statement → Prop
  | .top, p, q => graphs p = graphs q
  | .machine, p, q => p.flatMap Item.ofStatement = q.flatMap Item.ofStatement
  | .state name, p, q => p.flatMap (Item.edges name) = q.flatMap (Item.edges name)
  | .hidden, _, _ => True

variable {place : Place} {p q : List Statement}

/-- What stands before and after is shown by itself. -/
theorem SameView.within (h : SameView place p q) (before after : List Statement) :
    SameView place (before ++ p ++ after) (before ++ q ++ after) := by
  cases place with
  | top =>
      show graphs _ = graphs _
      rw [graphs_append, graphs_append, graphs_append, graphs_append, show graphs p = graphs q from h]
  | machine =>
      show List.flatMap _ _ = List.flatMap _ _
      simp only [List.flatMap_append, show p.flatMap _ = q.flatMap _ from h]
  | state name =>
      show List.flatMap _ _ = List.flatMap _ _
      simp only [List.flatMap_append, show p.flatMap _ = q.flatMap _ from h]
  | hidden => trivial

/-- Of a machine, its name is shown and what its block shows. -/
theorem SameView.inMachine (h : SameView place.inMachine p q) (name : String) :
    SameView place [.machine name p] [.machine name q] := by
  cases place with
  | top => exact congrArg (fun items => [(⟨name, items⟩ : Graph)]) h
  | machine | state _ | hidden => trivial

/-- Of a state's block in a machine, the edges from the state are shown. -/
theorem SameView.inState {name : String} (h : SameView (place.inState name) p q) :
    SameView place [.stateDef name p] [.stateDef name q] := by
  cases place with
  | machine => exact congrArg (· ++ []) h
  | top | state _ | hidden => trivial

/-- A target that leads back leads to the state. -/
theorem resolve_loopTarget (name : String) : resolve name loopTarget = name :=
  if_pos (beq_self_eq_true loopTarget)

/-- So does the state's own name, also if that is the one for targets that lead back. -/
theorem resolve_self (name : String) : resolve name name = name :=
  ite_self name

/-! ## Changes do not show -/

/-- A block cut in two shows what it showed. -/
theorem sameView_splitState (name : String) (before after : List Statement) :
    SameView place [.stateDef name (before ++ after)]
      [.stateDef name before, .stateDef name after] := by
  cases place with
  | machine => simp [SameView, Item.ofStatement]
  | top | state _ | hidden => trivial

/-- A transition cut in two shows what it showed. -/
theorem sameView_splitTransition (label : String) (before after : List String) :
    SameView place [.transition label (before ++ after)]
      [.transition label before, .transition label after] := by
  cases place with
  | state name => simp [SameView, Item.edges]
  | top | machine | hidden => trivial

/-- A list of accepting states cut in two shows what it showed. -/
theorem sameView_splitAccept (before after : List String) :
    SameView place [.accept (before ++ after)] [.accept before, .accept after] := by
  cases place with
  | machine => simp [SameView, Item.ofStatement]
  | top | state _ | hidden => trivial

/-- **Every change leaves what is shown as it was**, in the place where it is made and in every place
    around that. -/
theorem Edit.sameView (h : Edit place p q) : SameView place p q := by
  induction h with
  | @dropOutside s hs =>
      cases s with
      | machine name body => exact absurd rfl (hs name body)
      | _ => rfl
  | dropBegin | dropEnd | dropTransition _ _ | dropMachine _ _ => rfl
  | @dropBeside name s hs =>
      cases s with
      | transition label targets => exact absurd rfl (hs label targets)
      | _ => rfl
  | nameLoop label before after => simp [SameView, Item.edges, resolve_loopTarget, resolve_self]
  | splitState name before after => exact sameView_splitState name before after
  | splitTransition label before after => exact sameView_splitTransition label before after
  | splitAccept before after => exact sameView_splitAccept before after
  | within before after _ ih => exact ih.within before after
  | inMachine name _ ih => exact ih.inMachine name
  | inState name _ ih => exact ih.inState

/-- **The text of graphs depends on what they show only.** It is the same after any of the changes, made
    anywhere in any program and under any layout. And it is put together from its parts: the text of two
    programs one after the other is the text of each. -/
theorem dot_eq_of_edit (layout : Layout) :
    (∀ p q, Edit .top p q → dot layout p = dot layout q) ∧
    ∀ p q, dot layout (p ++ q) = dot layout p ++ dot layout q := by
  refine ⟨fun p q h => ?_, dot_append layout⟩
  have hgraphs : graphs p = graphs q := h.sameView
  rw [dot_eq, dot_eq, hgraphs]

/-- A target that leads back, beside a marker in the block of a state that follows a list of accepting
    states in a machine, is named; names and label hold what would end a line or a quote. -/
theorem dot_eq_of_edit_loop :
    let p : List Statement := [.start "\"", .machine "m" [.accept ["\n"],
      .stateDef "\n" [.endMark, .transition "" ["b", loopTarget]]]]
    let q : List Statement := [.start "\"", .machine "m" [.accept ["\n"],
      .stateDef "\n" [.endMark, .transition "" ["b", "\n"]]]]
    Edit .top p q ∧ p ≠ q ∧ dot ⟨"TB", "\"", ""⟩ p = dot ⟨"TB", "\"", ""⟩ q := by
  intro p q
  have hloop : Edit (.state "\n") [.transition "" ["b", loopTarget]] [.transition "" ["b", "\n"]] :=
    .nameLoop "" ["b"] []
  have hstate : Edit .machine [.stateDef "\n" [.endMark, .transition "" ["b", loopTarget]]]
      [.stateDef "\n" [.endMark, .transition "" ["b", "\n"]]] :=
    .inState "\n" (.within [.endMark] [] hloop)
  have hmachine : Edit .top [.machine "m" _] [.machine "m" _] :=
    .inMachine "m" (.within [.accept ["\n"]] [] hstate)
  have hedit : Edit .top p q := .within [.start "\""] [] hmachine
  exact ⟨hedit, by decide, (dot_eq_of_edit _).1 p q hedit⟩

end StateDiagram

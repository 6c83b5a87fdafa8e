import StateDiagram.Outline
import Mathlib.Data.List.Forall2

/-!
# `Proofs.Addresses` — where a statement stands in a program

A statement has an address in its program: its index on each level, the outermost first. Addresses in
lexicographic order are the statements in the order of a walk that comes to a block before what it holds,
and to that before what follows the block. An outline is such a walk, and each of its rows tells what the
address does: how deep the statement stands, and on which levels more follows.

## Contents

* `program_induction` — a program is made of a statement, what its block holds, and what follows;
* `Address`, `statementAt?`, `HasLater` — addresses, and what is said of a statement by its address;
* `addresses`, `mem_addresses_iff`, `addresses_pairwise` — all addresses in order;
* `outline_cons` — the rows of a program, by its first statement;
* `Row.StandsAt`, `standsAt_outline` — the rows of an outline tell the addresses.
-/

namespace StateDiagram

variable {s t : Statement} {ss ts p : List Statement}

/-! ## Induction on programs -/

theorem Statement.sizeOf_children_le (s : Statement) : sizeOf s.children ≤ sizeOf s := by
  cases s with
  | machine name body => simp [children]
  | stateDef name body => simp [children]
  | transition label targets =>
      simp only [children, List.nil.sizeOf_spec, transition.sizeOf_spec]
      omega
  | _ => simp [children]

/-- **A program is nothing, or a statement with what its block holds, and what follows.** -/
@[elab_as_elim]
theorem program_induction {P : List Statement → Prop} (p : List Statement) (nil : P [])
    (cons : ∀ s ss, P s.children → P ss → P (s :: ss)) : P p :=
  match p with
  | [] => nil
  | s :: ss => cons s ss (program_induction s.children nil cons) (program_induction ss nil cons)
termination_by sizeOf p
decreasing_by
  · have hle := s.sizeOf_children_le
    simp only [List.cons.sizeOf_spec]
    omega
  · simp only [List.cons.sizeOf_spec]
    omega

/-! ## Addresses -/

/-- The address of a statement in a program: its index on each level, the outermost first. -/
abbrev Address := List Nat

/-- The statement that is at an address as seen from another one, itself at the empty address. -/
def Statement.below? (s : Statement) : Address → Option Statement
  | [] => some s
  | i :: a => s.children[i]?.bind (·.below? a)

/-- **The statement at an address.** -/
def statementAt? (program : List Statement) : Address → Option Statement
  | [] => none
  | i :: a => program[i]?.bind (·.below? a)

/-- **Another statement follows on the same level**, in the same block. -/
def HasLater (program : List Statement) (a : Address) : Prop :=
  ∃ (block : Address) (i j : Nat), a = block ++ [i] ∧ i < j ∧
    (statementAt? program (block ++ [j])).isSome = true

theorem statementAt?_below (s : Statement) (ss : List Statement) {a : Address} (h : a ≠ []) :
    statementAt? (s :: ss) (0 :: a) = statementAt? s.children a := by
  cases a with
  | nil => exact absurd rfl h
  | cons i a => rfl

theorem statementAt?_beside (s : Statement) (ss : List Statement) (a : Address) :
    statementAt? (s :: ss) (a.modifyHead (· + 1)) = statementAt? ss a := by
  cases a <;> rfl

theorem ne_nil_of_statementAt? {a : Address} (h : statementAt? p a = some s) : a ≠ [] := by
  rintro rfl
  cases h

/-- What follows the first statement of a list are the others. -/
theorem hasLater_first : HasLater (s :: ss) [0] ↔ ss ≠ [] := by
  constructor
  · rintro ⟨block, i, j, haddress, hlt, hsome⟩ rfl
    obtain ⟨rfl, rfl⟩ : block = [] ∧ i = 0 := by
      simpa [List.singleton_eq_append_iff] using haddress
    obtain ⟨j, rfl⟩ := Nat.exists_eq_add_of_lt hlt
    simp [statementAt?] at hsome
  · intro hne
    obtain ⟨t, ts, rfl⟩ := List.exists_cons_of_ne_nil hne
    exact ⟨[], 0, 1, rfl, Nat.zero_lt_one, rfl⟩

/-- Below the first statement its block tells what follows. -/
theorem hasLater_below {a : Address} (h : a ≠ []) :
    HasLater (s :: ss) (0 :: a) ↔ HasLater s.children a := by
  constructor
  · rintro ⟨block, i, j, haddress, hlt, hsome⟩
    cases block with
    | nil => exact absurd (List.cons.inj haddress).2 h
    | cons k block =>
        obtain ⟨rfl, rfl⟩ := List.cons.inj haddress
        rw [List.cons_append, statementAt?_below s ss (by simp)] at hsome
        exact ⟨block, i, j, rfl, hlt, hsome⟩
  · rintro ⟨block, i, j, rfl, hlt, hsome⟩
    rw [← statementAt?_below s ss (by simp)] at hsome
    exact ⟨0 :: block, i, j, rfl, hlt, hsome⟩

/-- Beside the first statement, the others tell it. -/
theorem hasLater_beside {a : Address} :
    HasLater (s :: ss) (a.modifyHead (· + 1)) ↔ HasLater ss a := by
  constructor
  · rintro ⟨block, i, j, haddress, hlt, hsome⟩
    cases a with
    | nil => exact absurd haddress (by simp)
    | cons k a =>
        cases block with
        | nil =>
            obtain ⟨rfl, rfl⟩ := List.cons.inj haddress
            obtain ⟨j, rfl⟩ := Nat.exists_eq_add_of_lt hlt
            exact ⟨[], k, k + 1 + j, rfl, by omega, hsome⟩
        | cons m block =>
            obtain ⟨rfl, rfl⟩ := List.cons.inj haddress
            exact ⟨k :: block, i, j, rfl, hlt, hsome⟩
  · rintro ⟨block, i, j, rfl, hlt, hsome⟩
    cases block with
    | nil => exact ⟨[], i + 1, j + 1, rfl, by omega, hsome⟩
    | cons k block => exact ⟨(k + 1) :: block, i, j, rfl, hlt, hsome⟩

/-! ## All addresses in order -/

mutual

/-- The addresses of what the block of a statement holds, as seen from there. -/
def Statement.addressesBelow : Statement → List Address
  | .machine _ body | .stateDef _ body => addresses body
  | .beginMark | .endMark | .start _ | .accept _ | .transition _ _ => []

/-- **The addresses of a program's statements**, a block before what it holds. -/
def addresses : List Statement → List Address
  | [] => []
  | s :: ss =>
    [0] :: (s.addressesBelow.map (0 :: ·) ++ (addresses ss).map (List.modifyHead (· + 1)))

end

theorem addresses_cons (s : Statement) (ss : List Statement) :
    addresses (s :: ss) = [0] :: ((addresses s.children).map (0 :: ·) ++
      (addresses ss).map (List.modifyHead (· + 1))) := by
  have hbelow : s.addressesBelow = addresses s.children := by
    cases s <;> rfl
  rw [addresses, hbelow]

/-- **Every statement has its address listed**, and nothing else is. -/
theorem mem_addresses_iff {a : Address} :
    a ∈ addresses p ↔ (statementAt? p a).isSome = true := by
  induction p using program_induction generalizing a with
  | nil => cases a <;> simp [addresses, statementAt?]
  | cons s ss ihBelow ihBeside =>
      rw [addresses_cons, List.mem_cons, List.mem_append, List.mem_map, List.mem_map]
      constructor
      · rintro (rfl | ⟨b, hb, rfl⟩ | ⟨b, hb, rfl⟩)
        · rfl
        · have hsome := ihBelow.mp hb
          obtain ⟨t, ht⟩ := Option.isSome_iff_exists.mp hsome
          rwa [statementAt?_below s ss (ne_nil_of_statementAt? ht)]
        · rw [statementAt?_beside]
          exact ihBeside.mp hb
      · intro hsome
        match a with
        | [] => cases hsome
        | [0] => exact .inl rfl
        | 0 :: i :: b => exact .inr (.inl ⟨i :: b, ihBelow.mpr hsome, rfl⟩)
        | (i + 1) :: b => exact .inr (.inr ⟨i :: b, ihBeside.mpr hsome, rfl⟩)

theorem exists_cons_of_mem_addresses {a : Address} (h : a ∈ addresses p) : ∃ i b, a = i :: b := by
  obtain ⟨s, hs⟩ := Option.isSome_iff_exists.mp (mem_addresses_iff.mp h)
  exact List.exists_cons_of_ne_nil (ne_nil_of_statementAt? hs)

/-- **Addresses are listed in lexicographic order**, each once. -/
theorem addresses_pairwise (p : List Statement) : (addresses p).Pairwise (· < ·) := by
  induction p using program_induction with
  | nil => exact List.Pairwise.nil
  | cons s ss ihBelow ihBeside =>
      rw [addresses_cons, List.pairwise_cons, List.pairwise_append]
      refine ⟨?_, ?_, ?_, ?_⟩
      · intro a ha
        rcases List.mem_append.mp ha with ha | ha
        · obtain ⟨b, hb, rfl⟩ := List.mem_map.mp ha
          obtain ⟨i, b, rfl⟩ := exists_cons_of_mem_addresses hb
          exact List.cons_lt_cons_iff.mpr (.inr ⟨rfl, List.nil_lt_cons _ _⟩)
        · obtain ⟨b, hb, rfl⟩ := List.mem_map.mp ha
          obtain ⟨i, b, rfl⟩ := exists_cons_of_mem_addresses hb
          exact List.cons_lt_cons_iff.mpr (.inl (Nat.succ_pos i))
      · exact List.pairwise_map.mpr (ihBelow.imp fun h => List.cons_lt_cons_iff.mpr (.inr ⟨rfl, h⟩))
      · refine List.pairwise_map.mpr (ihBeside.imp_of_mem fun {a b} ha hb h => ?_)
        obtain ⟨i, a, rfl⟩ := exists_cons_of_mem_addresses ha
        obtain ⟨j, b, rfl⟩ := exists_cons_of_mem_addresses hb
        rcases List.cons_lt_cons_iff.mp h with hlt | ⟨rfl, hrest⟩
        · exact List.cons_lt_cons_iff.mpr (.inl (Nat.succ_lt_succ hlt))
        · exact List.cons_lt_cons_iff.mpr (.inr ⟨rfl, hrest⟩)
      · intro a ha b hb
        obtain ⟨a, -, rfl⟩ := List.mem_map.mp ha
        obtain ⟨c, hc, rfl⟩ := List.mem_map.mp hb
        obtain ⟨j, c, rfl⟩ := exists_cons_of_mem_addresses hc
        exact List.cons_lt_cons_iff.mpr (.inl (Nat.succ_pos j))

/-! ## Outlines -/

/-- A row as seen from outside of a block around it. -/
def Row.under (more : Bool) (r : Row) : Row :=
  { r with guides := more :: r.guides }

/-- The rows of a block are those of its program, as seen from outside. -/
theorem outlineBelow_eq (guides : List Bool) (p : List Statement) :
    outlineBelow guides p = (outline p).map fun r => { r with guides := guides ++ r.guides } := by
  induction p using program_induction generalizing guides with
  | nil => rfl
  | cons s ss ihBelow ihBeside =>
      unfold outline at ihBelow ihBeside ⊢
      simp only [outlineBelow, Statement.outlineAt_eq, List.nil_append, List.cons_append,
        List.map_cons, List.map_append, List.append_nil]
      rw [ihBelow (guides ++ [!ss.isEmpty]), ihBelow [!ss.isEmpty], ihBeside guides]
      simp [List.map_map, Function.comp_def]

/-- **The rows of a program**: that of its first statement, those of what its block holds, and those of
    what follows. -/
theorem outline_cons (s : Statement) (ss : List Statement) :
    outline (s :: ss) = ⟨[], ss.isEmpty, s⟩ ::
      ((outline s.children).map (Row.under !ss.isEmpty) ++ outline ss) := by
  show s.outlineAt [] ss.isEmpty ++ outline ss = _
  rw [Statement.outlineAt_eq, outlineBelow_eq]
  rfl

/-- **A row tells an address**: the statement there, its depth, on which levels around it more follows, and
    whether more follows on its own. -/
structure Row.StandsAt (program : List Statement) (a : Address) (r : Row) : Prop where
  statement_eq : statementAt? program a = some r.statement
  length_eq : r.guides.length + 1 = a.length
  guide_iff : ∀ (k : Nat) (more : Bool), r.guides[k]? = some more →
    (more = true ↔ HasLater program (a.take (k + 1)))
  isLast_iff : r.isLast = true ↔ ¬ HasLater program a

theorem standsAt_first (s : Statement) (ss : List Statement) :
    Row.StandsAt (s :: ss) [0] ⟨[], ss.isEmpty, s⟩ where
  statement_eq := rfl
  length_eq := rfl
  guide_iff := by simp
  isLast_iff := by simp [hasLater_first]

/-- What a row of a block tells is told outside of it, where the block is the first statement. -/
theorem Row.StandsAt.below {a : Address} {r : Row} (h : r.StandsAt s.children a) (ss : List Statement) :
    (r.under !ss.isEmpty).StandsAt (s :: ss) (0 :: a) where
  statement_eq := by
    rw [statementAt?_below s ss (ne_nil_of_statementAt? h.statement_eq)]
    exact h.statement_eq
  length_eq := congrArg (· + 1) h.length_eq
  guide_iff k more hmore := by
    cases k with
    | zero =>
        obtain rfl := Option.some.inj hmore
        rw [List.take_succ_cons, List.take_zero, hasLater_first]
        simp
    | succ k =>
        have hne : a.take (k + 1) ≠ [] := by
          simpa using ne_nil_of_statementAt? h.statement_eq
        rw [List.take_succ_cons, hasLater_below hne]
        exact h.guide_iff k more hmore
  isLast_iff := by
    rw [hasLater_below (ne_nil_of_statementAt? h.statement_eq)]
    exact h.isLast_iff

/-- So it is where the row is of a statement that follows. -/
theorem Row.StandsAt.beside {a : Address} {r : Row} (h : r.StandsAt ss a) (s : Statement) :
    r.StandsAt (s :: ss) (a.modifyHead (· + 1)) where
  statement_eq := by
    rw [statementAt?_beside]
    exact h.statement_eq
  length_eq := by
    rw [List.length_modifyHead]
    exact h.length_eq
  guide_iff k more hmore := by
    have htake : (a.modifyHead (· + 1)).take (k + 1) = (a.take (k + 1)).modifyHead (· + 1) := by
      cases a <;> rfl
    rw [htake, hasLater_beside]
    exact h.guide_iff k more hmore
  isLast_iff := by
    rw [hasLater_beside]
    exact h.isLast_iff

/-- **The rows of an outline tell the addresses of all statements**, in their order. -/
theorem standsAt_outline (p : List Statement) :
    List.Forall₂ (fun a r => Row.StandsAt p a r) (addresses p) (outline p) := by
  induction p using program_induction with
  | nil => exact .nil
  | cons s ss ihBelow ihBeside =>
      rw [addresses_cons, outline_cons]
      refine .cons (standsAt_first s ss) (List.rel_append ?_ ?_)
      · rw [List.forall₂_map_left_iff, List.forall₂_map_right_iff]
        exact ihBelow.imp fun a r h => h.below ss
      · rw [List.forall₂_map_left_iff]
        exact ihBeside.imp fun a r h => h.beside s

end StateDiagram

import Mathlib.Data.List.TakeDrop

/-!
# `Proofs.UniqueReading` — texts that tell what they were written of

Parts of a text are written one after the other, often with nothing between them. A reader can tell the
parts if each is unmistakable: nothing else is written like it, and it is seen where it ends, whatever
follows of what may follow. Then a list of parts is unmistakable too, as long as what stands after the
list is not taken for one more part.

## Contents

* `Stops`, `eq_of_run_append` — a run of items of a class, before what does not go on with it;
* `Unmistakable` — a part that tells what it was written of, and where it ends;
* `Closes`, `Unmistakable.list` — lists of unmistakable parts.
-/

namespace StateDiagram

variable {β : Type} {p : β → Bool} {xs ys rest rest' : List β}

/-! ## Runs -/

/-- A list does not go on with items of a class: it is over, or goes on with another one. -/
def Stops (p : β → Bool) (rest : List β) : Prop :=
  ∀ x ∈ rest.head?, p x = false

@[simp] theorem stops_nil : Stops p [] := nofun

@[simp] theorem stops_cons {x : β} : Stops p (x :: rest) ↔ p x = false := by
  simp [Stops]

theorem takeWhile_append_of_stops (hxs : ∀ x ∈ xs, p x = true) (hrest : Stops p rest) :
    (xs ++ rest).takeWhile p = xs := by
  rw [List.takeWhile_append_of_pos hxs]
  cases rest with
  | nil => exact List.append_nil xs
  | cons x rest =>
      rw [List.takeWhile_cons_of_neg (by rw [stops_cons.mp hrest]; exact Bool.false_ne_true)]
      exact List.append_nil xs

/-- **A run ends where its class does**, so two runs that are read alike are the same. -/
theorem eq_of_run_append (hxs : ∀ x ∈ xs, p x = true) (hys : ∀ y ∈ ys, p y = true)
    (hrest : Stops p rest) (hrest' : Stops p rest') (h : xs ++ rest = ys ++ rest') :
    xs = ys ∧ rest = rest' := by
  have hrun : xs = ys := by
    rw [← takeWhile_append_of_stops hxs hrest, h, takeWhile_append_of_stops hys hrest']
  subst hrun
  exact ⟨rfl, List.append_cancel_left h⟩

/-! ## Parts and lists of parts -/

variable {α : Type} {Follows : List Char → Prop} {write : α → List Char} {items : List α}
  {r s : List Char}

/-- **What is written of `x` is unmistakable** before the texts that may follow: it tells `x`, and where
    it ends. -/
def Unmistakable (Follows : List Char → Prop) (write : α → List Char) (x : α) : Prop :=
  ∀ ⦃y r s⦄, Follows r → Follows s → write x ++ r = write y ++ s → x = y ∧ r = s

/-- A text that may follow a list of parts: it may follow a part, and does not begin with one. -/
structure Closes (Follows : List Char → Prop) (write : α → List Char) (r : List Char) : Prop where
  follows : Follows r
  no_part : ∀ x rest, r ≠ write x ++ rest

/-- What comes after a part of a list may follow it. -/
theorem Closes.follows_list (hr : Closes Follows write r) (hpart : ∀ x rest, Follows (write x ++ rest))
    (items : List α) : Follows (items.flatMap write ++ r) := by
  cases items with
  | nil => exact hr.follows
  | cons x items =>
      rw [List.flatMap_cons, List.append_assoc]
      exact hpart x _

/-- **Unmistakable parts make an unmistakable list.** -/
theorem Unmistakable.list (hitems : ∀ x ∈ items, Unmistakable Follows write x)
    (hpart : ∀ x rest, Follows (write x ++ rest)) :
    Unmistakable (Closes Follows write) (List.flatMap write) items := by
  induction items with
  | nil =>
      intro others r s hr hs h
      cases others with
      | nil => exact ⟨rfl, h⟩
      | cons y others =>
          rw [List.flatMap_cons, List.append_assoc] at h
          exact absurd h (hr.no_part y _)
  | cons x items ih =>
      intro others r s hr hs h
      rw [List.forall_mem_cons] at hitems
      cases others with
      | nil =>
          rw [List.flatMap_cons, List.append_assoc] at h
          exact absurd h.symm (hs.no_part x _)
      | cons y others =>
          rw [List.flatMap_cons, List.flatMap_cons, List.append_assoc, List.append_assoc] at h
          obtain ⟨rfl, hrest⟩ :=
            hitems.1 (hr.follows_list hpart items) (hs.follows_list hpart others) h
          obtain ⟨rfl, hend⟩ := ih hitems.2 hr hs hrest
          exact ⟨rfl, hend⟩

end StateDiagram

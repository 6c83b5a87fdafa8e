import StateDiagram.Registry

/-!
# `Proofs.Registrations` — what a registry answers

A registry is made, with or without the usual formatters, and then formatters are registered; it may be
made anew at any time. Of this history only what was registered since it was last made counts, and of that
only the last formatter of each name. All that a registry can be asked follows from this one fact, which
every step keeps.

## Contents

* `RegistryStep`, `Registry.ofSteps` — what is done to a registry, and what comes of it;
* `registered`, `lastNamed` — what was registered since it was last made, and the last of a name;
* `Registry.Holds` — the invariant, with a lemma for each step;
* `Registry.Answers`, `Registry.AgreeOn` — what a registry answers, about all names and about one;
* `ofSteps_answers` — what it answers after any steps.
-/

namespace StateDiagram

/-! ## Histories -/

/-- Something that is done to a registry: it is made anew, or a formatter is registered. -/
inductive RegistryStep
  /-- It is made without formatters. -/
  | makeEmpty
  /-- It is made with the usual formatters. -/
  | makeStandard
  /-- It is made with the usual formatters, graphs with the given layout. -/
  | makeWithLayout (layout : Layout)
  | register (f : Formatter)

namespace RegistryStep

/-- The registry after a step. -/
def apply (r : Registry) : RegistryStep → Registry
  | makeEmpty => .empty
  | makeStandard => .standard
  | makeWithLayout layout => .withLayout layout
  | register f => r.register f

/-- The formatters that count after a step, in the order in which they were registered: those that a
    registry is made with, then the others. -/
def record (fs : List Formatter) : RegistryStep → List Formatter
  | makeEmpty => []
  | makeStandard => [.dot .standard, .tree, .structured]
  | makeWithLayout layout => [.dot layout, .tree, .structured]
  | register f => fs ++ [f]

end RegistryStep

/-- The registry after some steps. -/
def Registry.ofSteps (steps : List RegistryStep) : Registry :=
  steps.foldl RegistryStep.apply .empty

/-- The formatters that were registered in some steps since the registry was last made. -/
def registered (steps : List RegistryStep) : List Formatter :=
  steps.foldl RegistryStep.record []

/-- The last formatter of a name. -/
def lastNamed (name : String) (fs : List Formatter) : Option Formatter :=
  (fs.filter (·.name = name)).getLast?

variable {r : Registry} {fs : List Formatter} {f : Formatter} {name : String}

/-- One more formatter is the last of its own name, and no other name's. -/
theorem lastNamed_concat :
    lastNamed name (fs ++ [f]) = if f.name = name then some f else lastNamed name fs := by
  by_cases h : f.name = name
  · simp [lastNamed, h]
  · simp [lastNamed, h]

/-- The last formatter of a name has this name. -/
theorem name_of_lastNamed (h : lastNamed name fs = some f) : f.name = name := by
  have hmem : f ∈ fs.filter (·.name = name) := List.mem_of_getLast? h
  exact of_decide_eq_true (List.mem_filter.mp hmem).2

/-! ## The invariant -/

/-- **What a registry holds**: of the formatters that were registered, the last of each name. -/
def Registry.Holds (r : Registry) (fs : List Formatter) : Prop :=
  ∀ name, r.find? name = lastNamed name fs

theorem holds_empty : Registry.empty.Holds [] :=
  fun name => Registry.find?_empty name

/-- Registering keeps the invariant, one formatter further. -/
theorem Registry.Holds.register (h : r.Holds fs) (f : Formatter) :
    (r.register f).Holds (fs ++ [f]) := by
  intro name
  rw [Registry.find?_register, lastNamed_concat, h name]

/-- A registry made with the usual formatters has had them registered. -/
theorem holds_withLayout (layout : Layout) :
    (Registry.withLayout layout).Holds [.dot layout, .tree, .structured] :=
  ((holds_empty.register (.dot layout)).register .tree).register .structured

/-- **Every step keeps the invariant.** -/
theorem Registry.Holds.apply (h : r.Holds fs) (step : RegistryStep) :
    (step.apply r).Holds (step.record fs) := by
  cases step with
  | makeEmpty => exact holds_empty
  | makeStandard => exact holds_withLayout .standard
  | makeWithLayout layout => exact holds_withLayout layout
  | register f => exact h.register f

/-- So it holds after any steps. -/
theorem Registry.Holds.foldl (h : r.Holds fs) (steps : List RegistryStep) :
    (steps.foldl RegistryStep.apply r).Holds (steps.foldl RegistryStep.record fs) := by
  induction steps generalizing r fs with
  | nil => exact h
  | cons step steps ih => exact ih (h.apply step)

/-! ## Answers -/

/-- The listed names are those under which a formatter is found. -/
theorem Registry.mem_names_iff : name ∈ r.names ↔ (r.find? name).isSome = true := by
  rw [← Registry.contains_eq_isSome_find?, Registry.names, Registry.contains, Std.TreeMap.mem_keys,
    Std.TreeMap.contains_iff_mem]

/-- The names are listed in the order of their code points, each once. -/
theorem Registry.names_increasing (r : Registry) : r.names.Pairwise (· < ·) := by
  apply Std.TreeMap.ordered_keys.imp
  intro a b h
  exact compareOfLessAndEq_eq_lt.mp h

/-- **What a registry answers** when formatters have been registered: the names that it lists increase;
    it has the names that it lists, and finds the last formatter of each; and it writes programs as
    that one does. That there is no such format it says of the names that it does not list, and of no
    other unless the formatter itself says so. -/
structure Registry.Answers (r : Registry) (fs : List Formatter) : Prop where
  increasing : r.names.Pairwise (· < ·)
  contains_iff : ∀ name, r.contains name = true ↔ name ∈ r.names
  isSome_iff : ∀ name, (r.find? name).isSome = true ↔ name ∈ r.names
  find_eq : ∀ name, r.find? name = lastNamed name fs
  name_eq : ∀ name f, r.find? name = some f → f.name = name
  serialize_found : ∀ name f program, r.find? name = some f →
    r.serialize program name = f.serialize program
  serialize_missing : ∀ name program, name ∉ r.names →
    r.serialize program name = .error (.notFound name)
  notFound_iff : ∀ name program, r.serialize program name = .error (.notFound name) ↔
    name ∉ r.names ∨
      ∃ f, lastNamed name fs = some f ∧ f.serialize program = .error (.notFound name)

/-- A name that is not listed has no formatter. -/
theorem Registry.find?_eq_none (h : name ∉ r.names) : r.find? name = none := by
  rw [Registry.mem_names_iff, Bool.not_eq_true, Option.isSome_eq_false_iff] at h
  exact Option.isNone_iff_eq_none.mp h

/-- All that a registry answers follows from what it holds. -/
theorem Registry.Holds.answers (h : r.Holds fs) : r.Answers fs := by
  have hfound {name f} (program : List Statement) (hf : r.find? name = some f) :
      r.serialize program name = f.serialize program := by
    simp only [Registry.serialize, hf]
  have hmissing {name} (program : List Statement) (hname : name ∉ r.names) :
      r.serialize program name = .error (.notFound name) := by
    simp only [Registry.serialize, Registry.find?_eq_none hname]
  constructor
  case increasing => exact r.names_increasing
  case contains_iff =>
    intro name
    rw [Registry.contains_eq_isSome_find?, Registry.mem_names_iff]
  case isSome_iff => exact fun name => Registry.mem_names_iff.symm
  case find_eq => exact h
  case name_eq =>
    intro name f hf
    rw [h name] at hf
    exact name_of_lastNamed hf
  case serialize_found => exact fun name f program hf => hfound program hf
  case serialize_missing => exact fun name program hname => hmissing program hname
  case notFound_iff =>
    intro name program
    rw [← h name]
    by_cases hname : name ∈ r.names
    · obtain ⟨f, hf⟩ := Option.isSome_iff_exists.mp (Registry.mem_names_iff.mp hname)
      rw [hfound program hf]
      simp [hname, hf]
    · simp [hname, hmissing program hname]

/-- **Two registries answer alike** about a name. -/
structure Registry.AgreeOn (r s : Registry) (name : String) : Prop where
  find_eq : r.find? name = s.find? name
  contains_eq : r.contains name = s.contains name
  mem_names_iff : name ∈ r.names ↔ name ∈ s.names
  serialize_eq : ∀ program, r.serialize program name = s.serialize program name

/-- Registering a formatter changes nothing about other names. -/
theorem Registry.agreeOn_register (r : Registry) (h : f.name ≠ name) :
    (r.register f).AgreeOn r name := by
  have hfind : (r.register f).find? name = r.find? name := by
    rw [Registry.find?_register, if_neg h]
  constructor
  case find_eq => exact hfind
  case contains_eq =>
    rw [Registry.contains_eq_isSome_find?, Registry.contains_eq_isSome_find?, hfind]
  case mem_names_iff => rw [Registry.mem_names_iff, Registry.mem_names_iff, hfind]
  case serialize_eq =>
    intro program
    simp only [Registry.serialize, hfind]

/-- **A registry answers by what was registered last**, whatever steps led to it: it answers as one in
    which the formatters were registered that count since it was last made. And one more formatter
    changes its answers about no other name. -/
theorem ofSteps_answers (steps : List RegistryStep) :
    (Registry.ofSteps steps).Answers (registered steps) ∧
    ∀ f name, f.name ≠ name →
      (Registry.ofSteps (steps ++ [.register f])).AgreeOn (Registry.ofSteps steps) name := by
  constructor
  · exact (holds_empty.foldl steps).answers
  · intro f name hname
    rw [Registry.ofSteps, List.foldl_append]
    exact Registry.agreeOn_register _ hname

/-- Graphs that cannot be written take the place of the usual ones, and what was registered before the
    registry was made anew is gone; until it is registered again, which changes nothing about graphs. -/
theorem ofSteps_answers_replaced :
    let lost : Formatter := ⟨"svg", "", fun _ => .ok "lost"⟩
    let failing : Formatter := ⟨"dot", "", fun _ => .error (.serialization "no graphs")⟩
    let steps : List RegistryStep :=
      [.register lost, .makeWithLayout ⟨"TB", "1", "entry"⟩, .register failing]
    let r := Registry.ofSteps steps
    r.names = ["dot", "json", "treeviz"] ∧ r.find? "dot" = some failing ∧
      r.serialize [] "dot" = .error (.serialization "no graphs") ∧
      r.serialize [] "svg" = .error (.notFound "svg") ∧
      "svg" ≠ "dot" ∧ (Registry.ofSteps (steps ++ [.register lost])).AgreeOn r "dot" := by
  intro lost failing steps r
  obtain ⟨hanswers, hothers⟩ := ofSteps_answers steps
  have hnames : r.names = ["dot", "json", "treeviz"] := by decide
  have hdot : r.find? "dot" = some failing := hanswers.find_eq "dot"
  have hsvg : "svg" ∉ r.names := by
    rw [hnames]
    decide
  refine ⟨hnames, hdot, ?_, hanswers.serialize_missing "svg" [] hsvg, by decide, ?_⟩
  · exact hanswers.serialize_found "dot" failing [] hdot
  · exact hothers lost "dot" (by decide)

end StateDiagram

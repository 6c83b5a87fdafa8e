/-!
# `Layout` — how graphs are to be drawn

## Contents

* `Layout` — the three texts that every graph carries;
* `Layout.standard` — what they are when nothing else is said.
-/

namespace StateDiagram

/-- Drawing instructions, written into every graph as they stand. -/
structure Layout where
  /-- The direction in which ranks are laid out. -/
  rankdir : String
  /-- The size of the canvas. -/
  size : String
  /-- The name of the point from which an arrow leads to the start state. -/
  initialNode : String
deriving DecidableEq, Repr

/-- Left to right, on the usual canvas. -/
def Layout.standard : Layout := ⟨"LR", "8,5", "initial"⟩

end StateDiagram

import StateDiagram.Proofs.GraphReader

/-!
# `Proofs.EntryMarker` — the point from which an arrow leads to the start state

The text of a graph draws an arrow to each start state from a point of its own. The layout says what the
point is called, and the name is written without quotes. A reader of the text does not tell a name with
quotes from the same name without, so the point is a state of the machine if a state is called like it.
Nothing keeps a source from that: the usual name of the point is a legal name.

So the point is apart from the states exactly where the machine has no state of that name.

## Contents

* `blocksOf` — the blocks of a text; `MarksPoint`, `NamesState` — what a block says of its nodes;
* `blocksOf_renderGraphs` — the blocks of the text of graphs are their lines;
* `namesState_iff`, `eq_of_marksPoint` — which states and points these name;
* `marker_not_fresh` — the point may be one of the states;
* `HasState`, `machinesOf` — the states of a machine, the machines of a program;
* `hasState_iff` — the states of a machine are those of its graph;
* `marker_fresh_iff` — when the point is none of the states.
-/

namespace StateDiagram

variable {name state : String} {line : List Char} {block : List (List Char)} {item : Item}
  {g : Graph} {gs : List Graph} {body p : List Statement}

/-! ## Blocks of a text -/

/-- **The blocks of a text**: its lines, cut at those that close a graph. The last piece is what follows
    the last graph. -/
def blocksOf (text : String) : List (List (List Char)) :=
  (text.toList.splitOn '\n').splitOn (writeLine closeForm [])

/-- A block has a point, with this name before its mark. -/
def MarksPoint (block : List (List Char)) (name : String) : Prop :=
  (name ++ " [shape=point];").toList ∈ block

/-- The states that an item names. -/
def Item.states : Item → List String
  | .entry state | .accept state => [state]
  | .edge source target _ => [source, target]

/-- The states that a line names: an accepting state, both ends of an edge, or a start state. -/
def statesOn (line : List Char) : List String :=
  match readItem? line with
  | some item => item.states
  | none => (readLine? Layout.standard.entryForm line).getD []

/-- A block names a state. -/
def NamesState (block : List (List Char)) (state : String) : Prop :=
  ∃ line ∈ block, state ∈ statesOn line

/-- The lines of a graph without the last. -/
def Graph.openLines (g : Graph) : List (List Char) :=
  writeLine headForm [g.name] :: writeLine Layout.standard.rankdirForm [] ::
    writeLine Layout.standard.sizeForm [] :: g.items.flatMap (Item.lines .standard)

theorem Graph.lines_eq (g : Graph) :
    g.lines .standard = g.openLines ++ [writeLine closeForm []] := rfl

/-- The line of an item begins with a quote or with the name of the point. -/
theorem head?_of_mem_lines (h : line ∈ item.lines .standard) :
    line.head? = some '"' ∨ line.head? = some 'i' := by
  cases item with
  | entry state =>
      simp only [Item.lines, List.mem_cons, List.not_mem_nil, or_false] at h
      rcases h with rfl | rfl
      · exact .inr rfl
      · exact .inr rfl
  | accept state =>
      obtain rfl := List.mem_singleton.mp h
      exact .inl (by simp [acceptForm, writeLine, toList_inQuotes])
  | edge source target label =>
      obtain rfl := List.mem_singleton.mp h
      exact .inl (by simp [edgeForm, writeLine, toList_inQuotes])

/-- No line of a graph but the last closes it. -/
theorem close_not_mem_openLines (g : Graph) : writeLine closeForm [] ∉ g.openLines := by
  intro h
  have hhead : (writeLine closeForm []).head? = some '\x7d' := rfl
  simp only [Graph.openLines, List.mem_cons, List.mem_flatMap] at h
  rcases h with h | h | h | ⟨item, -, h⟩
  · rw [h] at hhead
    cases hhead
  · rw [h] at hhead
    cases hhead
  · rw [h] at hhead
    cases hhead
  · rcases head?_of_mem_lines h with hitem | hitem
    · rw [hhead] at hitem
      cases hitem
    · rw [hhead] at hitem
      cases hitem

/-- **The blocks of the text of graphs are the lines of these**, with nothing after the last. -/
theorem blocksOf_renderGraphs (h : ∀ g ∈ gs, g.IsPlain) :
    blocksOf (renderGraphs .standard gs) = gs.map Graph.openLines ++ [[[]]] := by
  have hinline : Layout.standard.IsInline := ⟨by decide, by decide, by decide⟩
  have hlines : ∀ line ∈ gs.flatMap (Graph.lines .standard), '\n' ∉ line := by
    intro line hline
    obtain ⟨g, hg, hline⟩ := List.mem_flatMap.mp hline
    exact (h g hg).newline_not_mem hinline line hline
  unfold blocksOf
  rw [toList_renderGraphs h, splitOn_unlines hlines]
  clear h hlines
  induction gs with
  | nil => rfl
  | cons g gs ih =>
      rw [List.flatMap_cons, g.lines_eq, List.append_assoc, List.append_assoc, List.singleton_append,
        List.splitOn_append_cons_self_of_not_mem (close_not_mem_openLines g), ih]
      rfl

/-! ## What a block says of its nodes -/

/-- A line that does not begin with a name between quotes has no item. -/
theorem readItem?_eq_none (h : line.head? ≠ some '"') : readItem? line = none := by
  have hname : readName? line = none := by
    unfold readName?
    split
    next => exact absurd rfl h
    next => rfl
  unfold readItem? acceptForm edgeForm
  simp only [readLine?, hname]
  rfl

/-- The first lines of a graph name no state. -/
theorem statesOn_head (name : String) : statesOn (writeLine headForm [name]) = [] := by
  unfold statesOn
  rw [readItem?_eq_none (by simp [headForm, writeLine])]
  rfl

/-- **The lines of an item name its states**: where it is a start state, on the second of the two. -/
theorem exists_statesOn_iff (h : item.IsPlain) :
    (∃ line ∈ item.lines .standard, state ∈ statesOn line) ↔ state ∈ item.states := by
  cases item with
  | entry s =>
      have hmark : statesOn (writeLine Layout.standard.markForm []) = [] := by decide
      have hentry : statesOn (writeLine Layout.standard.entryForm [s]) = [s] := by
        unfold statesOn
        rw [readItem?_eq_none (by simp [Layout.entryForm, writeLine, Layout.standard]),
          readLine?_writeLine rfl (List.forall_mem_singleton.mpr h)]
        rfl
      simp [Item.lines, hmark, hentry, Item.states]
  | accept s =>
      have haccept : statesOn (writeLine acceptForm [s]) = [s] := by
        unfold statesOn
        rw [readItem?_accept h]
        rfl
      simp [Item.lines, haccept, Item.states]
  | edge source target label =>
      have hedge : statesOn (writeLine edgeForm [source, target, label]) = [source, target] := by
        unfold statesOn
        rw [readItem?_edge h.1 h.2.1 h.2.2.1]
        rfl
      simp [Item.lines, hedge, Item.states]

/-- **A block names the states of its graph.** -/
theorem namesState_iff (h : g.IsPlain) :
    NamesState g.openLines state ↔ ∃ item ∈ g.items, state ∈ item.states := by
  have hrankdir : statesOn (writeLine Layout.standard.rankdirForm []) = [] := by decide
  have hsize : statesOn (writeLine Layout.standard.sizeForm []) = [] := by decide
  have hitems : NamesState g.openLines state ↔
      ∃ item ∈ g.items, ∃ line ∈ item.lines .standard, state ∈ statesOn line := by
    unfold NamesState Graph.openLines
    simp only [List.exists_mem_cons_iff, statesOn_head, hrankdir, hsize, List.not_mem_nil,
      false_or, List.mem_flatMap]
    constructor
    · rintro ⟨line, ⟨item, hitem, hline⟩, hstate⟩
      exact ⟨item, hitem, line, hline, hstate⟩
    · rintro ⟨item, hitem, line, hline, hstate⟩
      exact ⟨line, ⟨item, hitem, hline⟩, hstate⟩
  rw [hitems]
  constructor
  · rintro ⟨item, hitem, hline⟩
    exact ⟨item, hitem, (exists_statesOn_iff (h.2 item hitem)).mp hline⟩
  · rintro ⟨item, hitem, hstate⟩
    exact ⟨item, hitem, (exists_statesOn_iff (h.2 item hitem)).mpr hstate⟩

/-- The line of an item that marks a point is that of a start state, and gives the point its usual name. -/
theorem eq_of_mark_mem_lines (h : (name ++ " [shape=point];").toList ∈ item.lines .standard) :
    name = "initial" := by
  have hmark : " [shape=point];".toList <:+ (name ++ " [shape=point];").toList := by simp
  cases item with
  | entry s =>
      rcases List.mem_cons.mp h with h | h
      · have hsplit : name ++ " [shape=point];" = "initial" ++ " [shape=point];" :=
          String.toList_inj.mp h
        exact (String.append_left_inj _).mp hsplit
      · have hentry : writeLine Layout.standard.entryForm [s] =
            "initial -> \"".toList ++ s.toList ++ "\"".toList := by
          simp [Layout.entryForm, Layout.standard, writeLine, toList_inQuotes]
        exact absurd (List.mem_singleton.mp h)
          (ne_of_suffix hmark ⟨_, hentry.symm⟩ (by decide) (by decide))
  | accept s =>
      exact absurd (List.mem_singleton.mp h) (ne_of_suffix hmark suffix_accept (by decide) (by decide))
  | edge source target label =>
      exact absurd (List.mem_singleton.mp h) (ne_of_suffix hmark suffix_edge (by decide) (by decide))

/-- **The points of a block** have the usual name. -/
theorem eq_of_marksPoint (h : MarksPoint g.openLines name) : name = "initial" := by
  have hmark : " [shape=point];".toList <:+ (name ++ " [shape=point];").toList := by simp
  have hhead : " \x7b".toList <:+ writeLine headForm [g.name] := suffix_writeLine rfl rfl
  simp only [MarksPoint, Graph.openLines, List.mem_cons, List.mem_flatMap] at h
  rcases h with h | h | h | ⟨item, -, h⟩
  · exact absurd h (ne_of_suffix hmark hhead (by decide) (by decide))
  · rw [h] at hmark
    exact absurd hmark (by decide)
  · rw [h] at hmark
    exact absurd hmark (by decide)
  · exact eq_of_mark_mem_lines h

/-! ## The point may be a state -/

/-- **The point is not always apart from the states**: a source may call a state like it, and then the text
    marks that state as the point. -/
theorem marker_not_fresh :
    ¬ ∀ source text, compile .standard source = .ok text → ∀ block ∈ blocksOf text, ∀ name state,
      MarksPoint block name → NamesState block state → name ≠ state := by
  intro h
  have hcompile : compile .standard "def m \x7b START -> initial ; \x7d ;" =
      .ok (dot .standard [.machine "m" [.start "initial"]]) := by
    decide +kernel
  have hblock : Graph.openLines ⟨"m", [.entry "initial"]⟩ ∈
      blocksOf (dot .standard [.machine "m" [.start "initial"]]) := by
    decide +kernel
  have hstate : NamesState (Graph.openLines ⟨"m", [.entry "initial"]⟩) "initial" := by
    unfold NamesState
    decide +kernel
  have hmark : MarksPoint (Graph.openLines ⟨"m", [.entry "initial"]⟩) "initial" := by
    unfold MarksPoint
    decide +kernel
  exact h _ _ hcompile _ hblock _ _ hmark hstate rfl

/-! ## When it is none -/

/-- **The states of a machine** with a given body: the start states, the accepting states, and both ends
    of its transitions. -/
inductive HasState (body : List Statement) (state : String) : Prop where
  | start : .start state ∈ body → HasState body state
  | accept {states : List String} : .accept states ∈ body → state ∈ states → HasState body state
  | source {block : List Statement} {label target : String} {targets : List String} :
      .stateDef state block ∈ body → .transition label targets ∈ block → target ∈ targets →
        HasState body state
  | target {name : String} {block : List Statement} {label target : String}
      {targets : List String} :
      .stateDef name block ∈ body → .transition label targets ∈ block → target ∈ targets →
        resolve name target = state → HasState body state

/-- The name and the body of a machine. -/
def Statement.machine? : Statement → Option (String × List Statement)
  | .machine name body => some (name, body)
  | _ => none

/-- The machines at the top level of a program, in order. -/
def machinesOf (p : List Statement) : List (String × List Statement) :=
  p.filterMap Statement.machine?

/-- The graph of a machine with a given name and body. -/
def Graph.ofMachine (machine : String × List Statement) : Graph :=
  ⟨machine.1, machine.2.flatMap Item.ofStatement⟩

/-- The graphs of a program are those of its machines. -/
theorem graphs_eq_map (p : List Statement) : graphs p = (machinesOf p).map Graph.ofMachine := by
  unfold graphs machinesOf
  rw [List.map_filterMap]
  congr 1
  funext s
  cases s <;> rfl

/-- The block with the number of a machine is that of the machine. -/
theorem getElem?_blocksOf_dot {source : String} {p : List Statement} {i : Nat}
    {machine : String × List Statement} (hp : program source = .ok p)
    (hmachine : (machinesOf p)[i]? = some machine) :
    (blocksOf (dot .standard p))[i]? = some (Graph.ofMachine machine).openLines := by
  have hplain := graphs_isPlain (program_wellFormed hp).1
  have hgraph : ((graphs p).map Graph.openLines)[i]? = some (Graph.ofMachine machine).openLines := by
    rw [graphs_eq_map, List.map_map, List.getElem?_map, hmachine]
    rfl
  obtain ⟨hi, -⟩ := List.getElem?_eq_some_iff.mp hgraph
  rw [dot_eq, blocksOf_renderGraphs hplain, List.getElem?_append_left hi]
  exact hgraph

/-- The parts that a statement declares name its states. -/
theorem hasState_iff : (∃ item ∈ body.flatMap Item.ofStatement, state ∈ item.states) ↔
    HasState body state := by
  constructor
  · rintro ⟨item, hitem, hstate⟩
    obtain ⟨s, hs, hitem⟩ := List.mem_flatMap.mp hitem
    cases s with
    | start name =>
        obtain rfl := List.mem_singleton.mp hitem
        obtain rfl := List.mem_singleton.mp hstate
        exact .start hs
    | accept states =>
        obtain ⟨name, hname, rfl⟩ := List.mem_map.mp hitem
        obtain rfl := List.mem_singleton.mp hstate
        exact .accept hs hname
    | stateDef name block =>
        obtain ⟨t, ht, hitem⟩ := List.mem_flatMap.mp hitem
        cases t with
        | transition label targets =>
            obtain ⟨target, htarget, rfl⟩ := List.mem_map.mp hitem
            simp only [Item.states, List.mem_cons, List.not_mem_nil, or_false] at hstate
            rcases hstate with rfl | rfl
            · exact .source hs ht htarget
            · exact .target hs ht htarget rfl
        | _ => cases hitem
    | _ => cases hitem
  · intro h
    have declared {s : Statement} {item : Item} (hs : s ∈ body) (hitem : item ∈ Item.ofStatement s)
        (hstate : state ∈ item.states) :
        ∃ item ∈ body.flatMap Item.ofStatement, state ∈ item.states :=
      ⟨item, List.mem_flatMap.mpr ⟨s, hs, hitem⟩, hstate⟩
    cases h with
    | start hs => exact declared hs List.mem_cons_self List.mem_cons_self
    | accept hs hstate => exact declared hs (List.mem_map_of_mem hstate) List.mem_cons_self
    | source hs ht htarget =>
        exact declared hs (List.mem_flatMap.mpr ⟨_, ht, List.mem_map_of_mem htarget⟩)
          List.mem_cons_self
    | target hs ht htarget hresolve =>
        exact declared hs (List.mem_flatMap.mpr ⟨_, ht, List.mem_map_of_mem htarget⟩)
          (List.mem_cons_of_mem _ (List.mem_singleton.mpr hresolve.symm))

/-- **The point is apart from the states exactly where no state is called like it.** In the text of a source
    under the standard layout, every point is called `initial`; the block that has it is that of a machine
    of the program, the one with the same number; and the point is none of the states that the block names
    if and only if the machine has no state `initial`. -/
theorem marker_fresh_iff (source text : String) (h : compile .standard source = .ok text) :
    ∃ p, program source = .ok p ∧ ∀ (i : Nat) (block : List (List Char)),
      (blocksOf text)[i]? = some block →
      ∀ name, MarksPoint block name → name = "initial" ∧ ∃ (m : String) (body : List Statement),
        (machinesOf p)[i]? = some (m, body) ∧
        ((∀ state, NamesState block state → name ≠ state) ↔ ¬ HasState body "initial") := by
  obtain ⟨p, hp, rfl⟩ := compile_eq_ok_iff.mp h
  refine ⟨p, hp, fun i block hblock name hid => ?_⟩
  have hplain := graphs_isPlain (program_wellFormed hp).1
  rw [dot_eq, blocksOf_renderGraphs hplain, graphs_eq_map, List.map_map, List.getElem?_append] at hblock
  split at hblock
  next hi =>
    rw [List.getElem?_map] at hblock
    obtain ⟨⟨m, body⟩, hmachine, rfl⟩ := Option.map_eq_some_iff.mp hblock
    obtain rfl : name = "initial" := eq_of_marksPoint hid
    have hgraph : Graph.ofMachine (m, body) ∈ graphs p := by
      rw [graphs_eq_map]
      exact List.mem_map_of_mem (List.mem_of_getElem? hmachine)
    have hnames (state : String) : NamesState (Graph.ofMachine (m, body)).openLines state ↔
        HasState body state :=
      (namesState_iff (hplain _ hgraph)).trans hasState_iff
    refine ⟨rfl, m, body, hmachine, ?_⟩
    constructor
    · intro hfresh hstate
      exact hfresh _ ((hnames _).mpr hstate) rfl
    · rintro hnone state hstate rfl
      exact hnone ((hnames _).mp hstate)
  next =>
    -- What follows the last graph is an empty line, which marks nothing.
    obtain rfl := List.mem_singleton.mp (List.mem_of_getElem? hblock)
    simp [MarksPoint] at hid

/-- Two machines: in the first the point is apart from the states, in the second it is one of them. -/
theorem marker_fresh_iff_second :
    let source := "def m \x7b START -> a ; STATE a -> \x7b x -> [SELF] ; \x7d ; \x7d ; " ++
      "def n \x7b START -> b ; STATE b -> \x7b x -> [initial] ; \x7d ; \x7d ;"
    ∃ text, compile .standard source = .ok text ∧
      (∃ block, (blocksOf text)[0]? = some block ∧ MarksPoint block "initial" ∧
        ∀ state, NamesState block state → "initial" ≠ state) ∧
      ∃ block, (blocksOf text)[1]? = some block ∧ MarksPoint block "initial" ∧
        ¬ ∀ state, NamesState block state → "initial" ≠ state := by
  intro source
  let first : List Statement := [.start "a", .stateDef "a" [.transition "x" ["SELF"]]]
  let second : List Statement := [.start "b", .stateDef "b" [.transition "x" ["initial"]]]
  have hprogram : program source = .ok [.machine "m" first, .machine "n" second] := by
    decide +kernel
  let text := dot .standard [.machine "m" first, .machine "n" second]
  have hcompile : compile .standard source = .ok text := by
    unfold compile
    rw [hprogram]
    rfl
  obtain ⟨p, hp, hblocks⟩ := marker_fresh_iff _ _ hcompile
  rw [hprogram] at hp
  obtain rfl := Except.ok.inj hp
  have hfirst : (blocksOf text)[0]? = some (Graph.openLines (.ofMachine ("m", first))) :=
    getElem?_blocksOf_dot hprogram rfl
  have hsecond : (blocksOf text)[1]? = some (Graph.openLines (.ofMachine ("n", second))) :=
    getElem?_blocksOf_dot hprogram rfl
  have hmark : MarksPoint (Graph.openLines (.ofMachine ("m", first))) "initial" := by
    unfold MarksPoint
    decide +kernel
  have hmark' : MarksPoint (Graph.openLines (.ofMachine ("n", second))) "initial" := by
    unfold MarksPoint
    decide +kernel
  refine ⟨_, hcompile, ⟨_, hfirst, hmark, ?_⟩, _, hsecond, hmark', ?_⟩
  · obtain ⟨-, m, body, hmachine, hfresh⟩ := hblocks 0 _ hfirst _ hmark
    obtain ⟨rfl, rfl⟩ := Prod.mk.inj (Option.some.inj hmachine)
    have hnone : ¬ HasState first "initial" := by
      rw [← hasState_iff]
      decide +kernel
    exact hfresh.mpr hnone
  · obtain ⟨-, m, body, hmachine, hfresh⟩ := hblocks 1 _ hsecond _ hmark'
    obtain ⟨rfl, rfl⟩ := Prod.mk.inj (Option.some.inj hmachine)
    have hstate : HasState second "initial" :=
      .target (List.mem_cons_of_mem _ List.mem_cons_self) List.mem_cons_self List.mem_cons_self
        (by decide)
    exact fun hall => hfresh.mp hall hstate

end StateDiagram

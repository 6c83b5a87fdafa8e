import StateDiagram.Proofs.GraphView
import StateDiagram.Proofs.Spelling

/-!
# `Proofs.GraphReader` — graphs read back from their text

The text of graphs holds names between quotes with nothing escaped, and the texts of the layout as they
stand. A reader that knows the layout can still get the graphs back, line by line: no name that a
source can declare holds a quote or a line break, and no line of one form can be mistaken for one of
another, whatever the layout says.

## Contents

* `Part`, `writeLine`, `readLine?` — forms of lines, with holes for names;
* `readLine?_writeLine` — what is written in a form is read in it;
* `Item.lines`, `Graph.lines` — the lines of a graph;
* `GraphReader`, `GraphReader.step?`, `readGraphs` — the reader;
* `ne_of_suffix`, `suffix_mark` — lines of different forms end differently;
* `run?_item`, `run?_lines` — the reader reads the lines of an item, and of a graph;
* `readGraphs_renderGraphs` — graphs of plain names are read back from their text;
* `Graph.usedNames`, `isLegal_of_mem_graphs`, `graphs_isPlain` — the graphs of a source's program have legal
  names, and so plain ones;
* `readGraphs_compile` — so they are read back, and different graphs have different texts.
-/

namespace StateDiagram

/-! ## Forms of lines -/

/-- A part of a line: a text that stands in every line of the form, or a name between quotes. -/
inductive Part where
  | text (t : String)
  | name
deriving DecidableEq, Repr

/-- The line of a form, with names in its holes. -/
def writeLine : List Part → List String → List Char
  | .text t :: form, names => t.toList ++ writeLine form names
  | .name :: form, name :: names => (inQuotes name).toList ++ writeLine form names
  | .name :: _, [] => []
  | [], _ => []

/-- A name between quotes, and what follows it. -/
def readName? : List Char → Option (String × List Char)
  | '"' :: cs =>
    match cs.dropWhile (· ≠ '"') with
    | _ :: rest => some (.ofList (cs.takeWhile (· ≠ '"')), rest)
    | [] => none
  | _ => none

/-- The names in a line of a form; none when the line is of another form. -/
def readLine? : List Part → List Char → Option (List String)
  | .text t :: form, line => (line.dropPrefix? t.toList).bind (readLine? form)
  | .name :: form, line =>
    (readName? line).bind fun (name, rest) => (readLine? form rest).map (name :: ·)
  | [], [] => some []
  | [], _ :: _ => none

variable {form : List Part} {name t : String} {names : List String} {rest line : List Char}

/-- A name that can stand between quotes on a line and be told from what follows. -/
def IsPlain (name : String) : Prop :=
  '"' ∉ name.toList ∧ '\n' ∉ name.toList

theorem toList_inQuotes (name : String) :
    (inQuotes name).toList = '"' :: (name.toList ++ ['"']) := by
  simp [inQuotes]

theorem readName?_inQuotes (h : '"' ∉ name.toList) :
    readName? ((inQuotes name).toList ++ rest) = some (name, rest) := by
  have hname : ∀ c ∈ name.toList, decide (c ≠ '"') = true := by
    intro c hc
    exact decide_eq_true fun heq => h (heq ▸ hc)
  rw [toList_inQuotes, List.cons_append, List.append_assoc]
  simp only [readName?]
  rw [List.dropWhile_append_of_pos hname, List.takeWhile_append_of_pos hname]
  simp

@[simp] theorem readLine?_text :
    readLine? (.text t :: form) (t.toList ++ rest) = readLine? form rest := by
  simp only [readLine?]
  rw [List.dropPrefix?_append_of_beq rest BEq.rfl]
  rfl

theorem readLine?_name (h : IsPlain name) :
    readLine? (.name :: form) ((inQuotes name).toList ++ rest) =
      (readLine? form rest).map (name :: ·) := by
  simp only [readLine?]
  rw [readName?_inQuotes h.1]
  rfl

/-- **What is written in a form is read in it**, if every hole is filled. -/
theorem readLine?_writeLine (hlen : names.length = form.count .name)
    (h : ∀ name ∈ names, IsPlain name) : readLine? form (writeLine form names) = some names := by
  induction form generalizing names with
  | nil =>
      obtain rfl := List.length_eq_zero_iff.mp hlen
      rfl
  | cons part form ih =>
      cases part with
      | text t =>
          rw [writeLine, readLine?_text]
          exact ih (by simpa using hlen) h
      | name =>
          cases names with
          | nil => simp at hlen
          | cons name names =>
              rw [List.forall_mem_cons] at h
              rw [writeLine, readLine?_name h.1, ih (by simpa using hlen) h.2]
              rfl

/-- A line of plain names in a form without line breaks has none. -/
theorem newline_not_mem_writeLine (hform : ∀ t, .text t ∈ form → '\n' ∉ t.toList)
    (h : ∀ name ∈ names, IsPlain name) : '\n' ∉ writeLine form names := by
  induction form generalizing names with
  | nil => simp [writeLine]
  | cons part form ih =>
      have hrest : ∀ t, .text t ∈ form → '\n' ∉ t.toList :=
        fun t ht => hform t (List.mem_cons_of_mem _ ht)
      cases part with
      | text t => simp [writeLine, hform t, ih hrest h]
      | name =>
          cases names with
          | nil => simp [writeLine]
          | cons name names =>
              rw [List.forall_mem_cons] at h
              simp [writeLine, toList_inQuotes, h.1.2, ih hrest h.2]

/-! ## The forms of a graph's text -/

/-- The first line of a graph. -/
def headForm : List Part := [.text "digraph ", .name, .text " \x7b"]

/-- An accepting state. -/
def acceptForm : List Part := [.name, .text " [shape=doublecircle];"]

/-- An edge. -/
def edgeForm : List Part := [.name, .text " -> ", .name, .text " [label=", .name, .text "]"]

/-- The last line of a graph. -/
def closeForm : List Part := [.text "\x7d"]

namespace Layout

/-- The first line of the layout. -/
def rankdirForm (layout : Layout) : List Part := [.text ("rankdir=" ++ layout.rankdir ++ ";")]

/-- The second line of the layout. -/
def sizeForm (layout : Layout) : List Part := [.text ("size=" ++ inQuotes layout.size)]

/-- The mark of a starting point. -/
def markForm (layout : Layout) : List Part := [.text (layout.initialNode ++ " [shape=point];")]

/-- The arrow from a starting point to a state. -/
def entryForm (layout : Layout) : List Part := [.text (layout.initialNode ++ " -> "), .name]

/-- No text of the layout has a line break. -/
def IsInline (layout : Layout) : Prop :=
  '\n' ∉ layout.rankdir.toList ∧ '\n' ∉ layout.size.toList ∧ '\n' ∉ layout.initialNode.toList

end Layout

/-- The lines of an item. -/
def Item.lines (layout : Layout) : Item → List (List Char)
  | .entry state => [writeLine layout.markForm [], writeLine layout.entryForm [state]]
  | .accept state => [writeLine acceptForm [state]]
  | .edge source target label => [writeLine edgeForm [source, target, label]]

/-- The lines of a graph. -/
def Graph.lines (layout : Layout) (g : Graph) : List (List Char) :=
  writeLine headForm [g.name] :: writeLine layout.rankdirForm [] ::
    writeLine layout.sizeForm [] ::
    (g.items.flatMap (Item.lines layout) ++ [writeLine closeForm []])

/-- Lines one after the other, with a line break after each. -/
def unlines (ls : List (List Char)) : List Char :=
  ls.flatMap (· ++ ['\n'])

@[simp] theorem unlines_append (ls ms : List (List Char)) :
    unlines (ls ++ ms) = unlines ls ++ unlines ms :=
  List.flatMap_append

@[simp] theorem unlines_cons (l : List Char) (ls : List (List Char)) :
    unlines (l :: ls) = l ++ '\n' :: unlines ls := by
  simp [unlines]

@[simp] theorem unlines_nil : unlines [] = [] := rfl

/-- An item whose names are plain, and whose label is not empty. -/
def Item.IsPlain : Item → Prop
  | .entry state => StateDiagram.IsPlain state
  | .accept state => StateDiagram.IsPlain state
  | .edge source target label =>
    StateDiagram.IsPlain source ∧ StateDiagram.IsPlain target ∧ StateDiagram.IsPlain label ∧
      label ≠ ""

/-- A graph whose names are plain. -/
def Graph.IsPlain (g : Graph) : Prop :=
  StateDiagram.IsPlain g.name ∧ ∀ item ∈ g.items, item.IsPlain

variable {layout : Layout} {item : Item} {items : List Item} {g : Graph} {gs : List Graph}

/-- The text of an item is its lines. -/
theorem Item.IsPlain.toList_render (h : item.IsPlain) :
    (item.render layout).toList = unlines (item.lines layout) := by
  cases item with
  | entry state =>
      simp [Item.render, Item.lines, writeLine, Layout.markForm, Layout.entryForm]
  | accept state => simp [Item.render, Item.lines, writeLine, acceptForm]
  | edge source target label =>
      simp [Item.render, Item.lines, writeLine, edgeForm, if_neg h.2.2.2]

/-- The text of several items is their lines. -/
theorem toList_join_items (h : ∀ item ∈ items, item.IsPlain) :
    (String.join (items.map (Item.render layout))).toList =
      unlines (items.flatMap (Item.lines layout)) := by
  induction items with
  | nil => rfl
  | cons item items ih =>
      rw [List.forall_mem_cons] at h
      simp [String.join_cons, h.1.toList_render, ih h.2]

/-- **The text of a graph is its lines.** -/
theorem Graph.IsPlain.toList_render (h : g.IsPlain) :
    (g.render layout).toList = unlines (g.lines layout) := by
  have hhead : " \x7b\n".toList = " \x7b".toList ++ ['\n'] := by decide
  have hrankdir : ";\n".toList = ";".toList ++ ['\n'] := by decide
  have hclose : "\x7d\n".toList = "\x7d".toList ++ ['\n'] := by decide
  have hbreak : "\n".toList = ['\n'] := by decide
  unfold Graph.render Graph.lines
  simp only [String.toList_append, toList_join_items h.2, unlines_cons, unlines_append,
    unlines_nil, hhead, hrankdir, hclose, hbreak]
  simp only [writeLine, headForm, closeForm, Layout.rankdirForm, Layout.sizeForm,
    String.toList_append, List.append_assoc, List.append_nil, List.cons_append, List.nil_append]

theorem toList_renderGraphs (h : ∀ g ∈ gs, g.IsPlain) :
    (renderGraphs layout gs).toList = unlines (gs.flatMap (Graph.lines layout)) := by
  induction gs with
  | nil => rfl
  | cons g gs ih =>
      rw [List.forall_mem_cons] at h
      have hrest := ih h.2
      unfold renderGraphs at hrest ⊢
      rw [List.map_cons, String.join_cons, String.toList_append, h.1.toList_render, hrest,
        List.flatMap_cons, unlines_append]

/-- No line of an item has a line break within. -/
theorem Item.IsPlain.newline_not_mem (hlayout : layout.IsInline) (h : item.IsPlain) :
    ∀ line ∈ item.lines layout, '\n' ∉ line := by
  have hmark : ∀ t, .text t ∈ layout.markForm → '\n' ∉ t.toList := by
    simp [Layout.markForm, hlayout.2.2]
  have hentry : ∀ t, .text t ∈ layout.entryForm → '\n' ∉ t.toList := by
    simp [Layout.entryForm, hlayout.2.2]
  cases item with
  | entry state =>
      refine List.forall_mem_cons.mpr ⟨newline_not_mem_writeLine hmark (List.forall_mem_nil _), ?_⟩
      exact List.forall_mem_singleton.mpr
        (newline_not_mem_writeLine hentry (List.forall_mem_singleton.mpr h))
  | accept state =>
      exact List.forall_mem_singleton.mpr
        (newline_not_mem_writeLine (by simp [acceptForm]) (List.forall_mem_singleton.mpr h))
  | edge source target label =>
      refine List.forall_mem_singleton.mpr (newline_not_mem_writeLine (by simp [edgeForm]) ?_)
      simp only [List.forall_mem_cons]
      exact ⟨h.1, h.2.1, h.2.2.1, List.forall_mem_nil _⟩

/-- **No line of a graph has a line break within.** -/
theorem Graph.IsPlain.newline_not_mem (hlayout : layout.IsInline) (h : g.IsPlain) :
    ∀ line ∈ g.lines layout, '\n' ∉ line := by
  simp only [Graph.lines, List.forall_mem_cons, List.forall_mem_append]
  refine ⟨?_, ?_, ?_, ?_, ?_, List.forall_mem_nil _⟩
  · exact newline_not_mem_writeLine (by simp [headForm]) (List.forall_mem_singleton.mpr h.1)
  · exact newline_not_mem_writeLine (by simp [Layout.rankdirForm, hlayout.1]) (List.forall_mem_nil _)
  · exact newline_not_mem_writeLine
      (by simp [Layout.sizeForm, toList_inQuotes, hlayout.2.1]) (List.forall_mem_nil _)
  · intro line hline
    obtain ⟨item, hitem, hline⟩ := List.mem_flatMap.mp hline
    exact (h.2 item hitem).newline_not_mem hlayout line hline
  · exact newline_not_mem_writeLine (by simp [closeForm]) (List.forall_mem_nil _)

/-- Lines without line breaks are what a text is split into at its line breaks. -/
theorem splitOn_unlines {ls : List (List Char)} (h : ∀ l ∈ ls, '\n' ∉ l) :
    (unlines ls).splitOn '\n' = ls ++ [[]] := by
  induction ls with
  | nil => rfl
  | cons l ls ih =>
      rw [List.forall_mem_cons] at h
      rw [unlines_cons, List.splitOn_append_cons_self_of_not_mem h.1, ih h.2]
      rfl

/-! ## The reader -/

/-- The line at which a reader of graphs stands. -/
inductive ReaderPlace where
  /-- A graph may begin. -/
  | between
  /-- The first line of the layout is due. -/
  | rankdir (name : String)
  /-- The second line of the layout is due. -/
  | size (name : String)
  /-- More items may follow, or the last line. -/
  | inside (name : String) (items : List Item)
  /-- The arrow from a starting point is due. -/
  | entry (name : String) (items : List Item)

/-- What a reader has understood so far: the graphs that it has read, and where it stands. -/
structure GraphReader where
  done : List Graph
  place : ReaderPlace

/-- An item that stands on one line. -/
def readItem? (line : List Char) : Option Item :=
  match readLine? acceptForm line with
  | some [state] => some (.accept state)
  | _ =>
    match readLine? edgeForm line with
    | some [source, target, label] => some (.edge source target label)
    | _ => none

/-- One more line. Between graphs an empty line is passed over. -/
def GraphReader.step? (layout : Layout) (r : GraphReader) (line : List Char) :
    Option GraphReader :=
  match r.place with
  | .between =>
    if line = [] then some r
    else
      match readLine? headForm line with
      | some [name] => some ⟨r.done, .rankdir name⟩
      | _ => none
  | .rankdir name =>
    if line = writeLine layout.rankdirForm [] then some ⟨r.done, .size name⟩ else none
  | .size name =>
    if line = writeLine layout.sizeForm [] then some ⟨r.done, .inside name []⟩ else none
  | .inside name items =>
    if line = writeLine layout.markForm [] then some ⟨r.done, .entry name items⟩
    else if line = writeLine closeForm [] then some ⟨r.done ++ [⟨name, items⟩], .between⟩
    else (readItem? line).map fun item => ⟨r.done, .inside name (items ++ [item])⟩
  | .entry name items =>
    match readLine? layout.entryForm line with
    | some [state] => some ⟨r.done, .inside name (items ++ [.entry state])⟩
    | _ => none

/-- Several lines, one after the other. -/
def GraphReader.run? (layout : Layout) (r : GraphReader) (ls : List (List Char)) :
    Option GraphReader :=
  ls.foldlM (GraphReader.step? layout) r

/-- **The graphs of a text**, read line by line by someone who knows the layout; none when a line is
    not understood or the last graph is incomplete. -/
def readGraphs (layout : Layout) (text : String) : Option (List Graph) :=
  match GraphReader.run? layout ⟨[], .between⟩ (text.toList.splitOn '\n') with
  | some ⟨done, .between⟩ => some done
  | _ => none

/-! ## Lines of different forms differ -/

variable {state source target label : String}

/-- A line ends as its form does. -/
theorem suffix_writeLine (hform : form.getLast? = some (.text t))
    (hlen : names.length = form.count .name) : t.toList <:+ writeLine form names := by
  -- The last part of a form stays its last part when the first ones are taken off.
  induction form generalizing names with
  | nil => exact nomatch hform
  | cons part form ih =>
      cases form with
      | nil =>
          obtain rfl : part = .text t := by simpa using hform
          simp [writeLine]
      | cons next form =>
          rw [List.getLast?_cons_cons] at hform
          cases part with
          | text u =>
              rw [writeLine]
              exact (ih hform (by simpa using hlen)).trans (List.suffix_append _ _)
          | name =>
              cases names with
              | nil => simp at hlen
              | cons name names =>
                  rw [writeLine]
                  exact (ih hform (by simpa using hlen)).trans (List.suffix_append _ _)

/-- Lines differ if they end differently. -/
theorem ne_of_suffix {l m u v : List Char} (hu : u <:+ l) (hv : v <:+ m) (huv : ¬ u <:+ v)
    (hvu : ¬ v <:+ u) : l ≠ m := by
  rintro rfl
  rcases List.suffix_or_suffix_of_suffix hu hv with h | h
  · exact huv h
  · exact hvu h

/-- Whatever the layout calls the starting point, its mark ends in its own way. -/
theorem suffix_mark : " [shape=point];".toList <:+ writeLine layout.markForm [] := by
  simp [writeLine, Layout.markForm]

theorem suffix_close : "\x7d".toList <:+ writeLine closeForm [] :=
  suffix_writeLine rfl rfl

theorem suffix_accept : " [shape=doublecircle];".toList <:+ writeLine acceptForm [state] :=
  suffix_writeLine rfl rfl

theorem suffix_edge : "]".toList <:+ writeLine edgeForm [source, target, label] :=
  suffix_writeLine rfl rfl

/-- An edge is no accepting state: the two differ after the first name. -/
theorem readLine?_accept_edge (h : IsPlain source) :
    readLine? acceptForm (writeLine edgeForm [source, target, label]) = none := by
  have hdiffer (rest : List Char) :
      (" -> ".toList ++ rest).dropPrefix? " [shape=doublecircle];".toList = none := rfl
  unfold acceptForm edgeForm
  rw [writeLine, readLine?_name h, writeLine, readLine?, hdiffer]
  rfl

/-! ## What is written is read -/

variable {done : List Graph} {r r' : GraphReader} {l : List Char} {ls ms : List (List Char)}

@[simp] theorem run?_nil : GraphReader.run? layout r [] = some r := rfl

/-- A run goes on from where a line leads to. -/
theorem run?_cons (h : r.step? layout l = some r') : r.run? layout (l :: ls) = r'.run? layout ls := by
  unfold GraphReader.run?
  rw [List.foldlM_cons, h]
  rfl

/-- A run goes on from where some lines lead to. -/
theorem run?_append (h : r.run? layout ls = some r') :
    r.run? layout (ls ++ ms) = r'.run? layout ms := by
  unfold GraphReader.run? at h ⊢
  rw [List.foldlM_append, h]
  rfl

theorem readItem?_accept (h : IsPlain state) :
    readItem? (writeLine acceptForm [state]) = some (.accept state) := by
  unfold readItem?
  rw [readLine?_writeLine rfl (List.forall_mem_singleton.mpr h)]

theorem readItem?_edge (hs : IsPlain source) (ht : IsPlain target) (hl : IsPlain label) :
    readItem? (writeLine edgeForm [source, target, label]) = some (.edge source target label) := by
  have hnames : ∀ name ∈ [source, target, label], IsPlain name := by
    simp [hs, ht, hl]
  unfold readItem?
  rw [readLine?_accept_edge hs, readLine?_writeLine rfl hnames]

/-- Within a graph, a line that is neither the mark nor the last line is that of an item. -/
theorem step?_inside {line : List Char} (hmark : line ≠ writeLine layout.markForm [])
    (hclose : line ≠ writeLine closeForm []) (hitem : readItem? line = some item) :
    GraphReader.step? layout ⟨done, .inside name items⟩ line =
      some ⟨done, .inside name (items ++ [item])⟩ := by
  simp only [GraphReader.step?, if_neg hmark, if_neg hclose, hitem]
  rfl

theorem step?_mark :
    GraphReader.step? layout ⟨done, .inside name items⟩ (writeLine layout.markForm []) =
      some ⟨done, .entry name items⟩ := by
  simp only [GraphReader.step?, if_pos]

theorem step?_entry (h : IsPlain state) :
    GraphReader.step? layout ⟨done, .entry name items⟩ (writeLine layout.entryForm [state]) =
      some ⟨done, .inside name (items ++ [.entry state])⟩ := by
  simp only [GraphReader.step?]
  rw [readLine?_writeLine rfl (List.forall_mem_singleton.mpr h)]

/-- **The lines of an item are read as the item.** -/
theorem run?_item (h : item.IsPlain) :
    GraphReader.run? layout ⟨done, .inside name items⟩ (item.lines layout) =
      some ⟨done, .inside name (items ++ [item])⟩ := by
  cases item with
  | entry state => rw [Item.lines, run?_cons step?_mark, run?_cons (step?_entry h), run?_nil]
  | accept state =>
      -- The mark could begin like this line, as the layout names the starting point.
      have hmark : writeLine acceptForm [state] ≠ writeLine layout.markForm [] :=
        ne_of_suffix suffix_accept suffix_mark (by decide) (by decide)
      have hclose : writeLine acceptForm [state] ≠ writeLine closeForm [] :=
        ne_of_suffix suffix_accept suffix_close (by decide) (by decide)
      rw [Item.lines, run?_cons (step?_inside hmark hclose (readItem?_accept h)), run?_nil]
  | edge source target label =>
      have hmark : writeLine edgeForm [source, target, label] ≠ writeLine layout.markForm [] :=
        ne_of_suffix suffix_edge suffix_mark (by decide) (by decide)
      have hclose : writeLine edgeForm [source, target, label] ≠ writeLine closeForm [] :=
        ne_of_suffix suffix_edge suffix_close (by decide) (by decide)
      have hitem := readItem?_edge h.1 h.2.1 h.2.2.1
      rw [Item.lines, run?_cons (step?_inside hmark hclose hitem), run?_nil]

/-- The lines of several items are read as these, one after the other. -/
theorem run?_items {more : List Item} (h : ∀ item ∈ more, item.IsPlain) :
    GraphReader.run? layout ⟨done, .inside name items⟩ (more.flatMap (Item.lines layout)) =
      some ⟨done, .inside name (items ++ more)⟩ := by
  induction more generalizing items with
  | nil => simp
  | cons item more ih =>
      rw [List.forall_mem_cons] at h
      rw [List.flatMap_cons, run?_append (run?_item h.1), ih h.2, List.append_assoc,
        List.singleton_append]

/-- The first line of a graph is read as its name. -/
theorem step?_head (h : IsPlain name) :
    GraphReader.step? layout ⟨done, .between⟩ (writeLine headForm [name]) =
      some ⟨done, .rankdir name⟩ := by
  simp only [GraphReader.step?]
  rw [if_neg (by simp [writeLine, headForm]),
    readLine?_writeLine rfl (List.forall_mem_singleton.mpr h)]

theorem step?_rankdir :
    GraphReader.step? layout ⟨done, .rankdir name⟩ (writeLine layout.rankdirForm []) =
      some ⟨done, .size name⟩ := by
  simp only [GraphReader.step?, if_pos]

theorem step?_size :
    GraphReader.step? layout ⟨done, .size name⟩ (writeLine layout.sizeForm []) =
      some ⟨done, .inside name []⟩ := by
  simp only [GraphReader.step?, if_pos]

/-- The last line of a graph completes it. -/
theorem step?_close :
    GraphReader.step? layout ⟨done, .inside name items⟩ (writeLine closeForm []) =
      some ⟨done ++ [⟨name, items⟩], .between⟩ := by
  have hmark : writeLine closeForm [] ≠ writeLine layout.markForm [] :=
    ne_of_suffix suffix_close suffix_mark (by decide) (by decide)
  simp only [GraphReader.step?, if_neg hmark, if_pos]

/-- **The lines of a graph are read as the graph.** -/
theorem run?_lines (h : g.IsPlain) :
    GraphReader.run? layout ⟨done, .between⟩ (g.lines layout) = some ⟨done ++ [g], .between⟩ := by
  rw [Graph.lines, run?_cons (step?_head h.1), run?_cons step?_rankdir, run?_cons step?_size,
    run?_append (run?_items h.2), run?_cons step?_close, run?_nil, List.nil_append]

/-- The lines of several graphs are read as these, one after the other. -/
theorem run?_graphs (h : ∀ g ∈ gs, g.IsPlain) :
    GraphReader.run? layout ⟨done, .between⟩ (gs.flatMap (Graph.lines layout)) =
      some ⟨done ++ gs, .between⟩ := by
  induction gs generalizing done with
  | nil => simp
  | cons g gs ih =>
      rw [List.forall_mem_cons] at h
      rw [List.flatMap_cons, run?_append (run?_lines h.1), ih h.2, List.append_assoc,
        List.singleton_append]

/-- **Graphs of plain names are read back from their text**, under a layout without line breaks. -/
theorem readGraphs_renderGraphs (hlayout : layout.IsInline) (h : ∀ g ∈ gs, g.IsPlain) :
    readGraphs layout (renderGraphs layout gs) = some gs := by
  have hlines : ∀ line ∈ gs.flatMap (Graph.lines layout), '\n' ∉ line := by
    intro line hline
    obtain ⟨g, hg, hline⟩ := List.mem_flatMap.mp hline
    exact (h g hg).newline_not_mem hlayout line hline
  unfold readGraphs
  rw [toList_renderGraphs h, splitOn_unlines hlines, run?_append (run?_graphs h)]
  rfl

/-! ## The graphs of a source -/

/-- The names in an item. -/
def Item.usedNames : Item → List String
  | .entry state | .accept state => [state]
  | .edge source target label => [source, target, label]

/-- The names in a graph: its own, and those in its items. -/
def Graph.usedNames (g : Graph) : List String :=
  g.name :: g.items.flatMap Item.usedNames

variable {inState : Bool}

/-- Legal names are plain, and none is empty. -/
theorem IsLegal.isPlain (h : IsLegal name) : IsPlain name ∧ name ≠ "" := by
  have htext := h.isNameText
  simp only [StateDiagram.isNameText, Bool.and_eq_true, List.all_eq_true] at htext
  refine ⟨⟨fun hquote => ?_, fun hbreak => ?_⟩, ?_⟩
  · exact absurd (htext.2 _ hquote) (by decide)
  · exact absurd (htext.2 _ hbreak) (by decide)
  · rintro rfl
    exact absurd htext.1 (by decide)

theorem WellFormed.of_mem {ss : List Statement} {s : Statement} (h : WellFormed inState ss)
    (hs : s ∈ ss) : s.WellFormed inState := by
  induction ss with
  | nil => exact nomatch hs
  | cons t ss ih =>
      rcases List.mem_cons.mp hs with rfl | hs
      · exact h.1
      · exact ih h.2 hs

/-- The names in the edges of a well-formed statement in a state block are legal. -/
theorem isLegal_of_mem_edges {s : Statement} (hname : IsLegal name) (h : s.WellFormed true) :
    ∀ item ∈ Item.edges name s, ∀ n ∈ item.usedNames, IsLegal n := by
  cases s with
  | transition label targets =>
      obtain ⟨-, hlabel, htargets⟩ := h
      intro item hitem
      obtain ⟨target, htarget, rfl⟩ := List.mem_map.mp hitem
      -- A target that leads back is not written: the state's own name is.
      have hresolve : IsLegal (resolve name target) := by
        unfold resolve
        split
        next => exact hname
        next hloop =>
          rcases htargets target htarget with hlegal | rfl
          · exact hlegal
          · exact absurd (by decide) hloop
      simp only [Item.usedNames, List.forall_mem_cons]
      exact ⟨hname, hresolve, hlabel, List.forall_mem_nil _⟩
  | _ =>
      intro item hitem
      cases hitem

/-- The names in the items of a well-formed statement are legal. -/
theorem isLegal_of_mem_ofStatement {s : Statement} (h : s.WellFormed inState) :
    ∀ item ∈ Item.ofStatement s, ∀ n ∈ item.usedNames, IsLegal n := by
  cases s with
  | start state => exact List.forall_mem_singleton.mpr (List.forall_mem_singleton.mpr h)
  | accept states =>
      intro item hitem
      obtain ⟨state, hstate, rfl⟩ := List.mem_map.mp hitem
      exact List.forall_mem_singleton.mpr (h state hstate)
  | stateDef name body =>
      intro item hitem
      obtain ⟨s, hs, hitem⟩ := List.mem_flatMap.mp hitem
      exact isLegal_of_mem_edges h.1 (h.2.of_mem hs) item hitem
  | _ =>
      intro item hitem
      cases hitem

/-- **The names in the graphs of a well-formed program are legal.** -/
theorem isLegal_of_mem_graphs {p : List Statement} (h : WellFormed inState p) (hg : g ∈ graphs p) :
    ∀ n ∈ g.usedNames, IsLegal n := by
  obtain ⟨s, hs, hgraph⟩ := List.mem_filterMap.mp hg
  have hwell := h.of_mem hs
  cases s with
  | machine name body =>
      obtain rfl := Option.some.inj hgraph
      refine List.forall_mem_cons.mpr ⟨hwell.1, fun n hn => ?_⟩
      obtain ⟨item, hitem, hn⟩ := List.mem_flatMap.mp hn
      obtain ⟨t, ht, hitem⟩ := List.mem_flatMap.mp hitem
      exact isLegal_of_mem_ofStatement (hwell.2.of_mem ht) item hitem n hn
  | _ => exact nomatch hgraph

/-- An item whose names are legal is plain. -/
theorem Item.isPlain_of_isLegal (h : ∀ n ∈ item.usedNames, IsLegal n) : item.IsPlain := by
  cases item with
  | entry state | accept state => exact (h state List.mem_cons_self).isPlain.1
  | edge source target label =>
      simp only [Item.usedNames, List.forall_mem_cons] at h
      exact ⟨h.1.isPlain.1, h.2.1.isPlain.1, h.2.2.1.isPlain⟩

/-- A graph whose names are legal is plain. -/
theorem Graph.isPlain_of_isLegal (h : ∀ n ∈ g.usedNames, IsLegal n) : g.IsPlain := by
  obtain ⟨hname, hitems⟩ := List.forall_mem_cons.mp h
  refine ⟨hname.isPlain.1, fun item hitem => ?_⟩
  exact Item.isPlain_of_isLegal fun n hn => hitems n (List.mem_flatMap.mpr ⟨item, hitem, hn⟩)

/-- **The graphs of a well-formed program have plain names.** -/
theorem graphs_isPlain {p : List Statement} (h : WellFormed inState p) :
    ∀ g ∈ graphs p, g.IsPlain :=
  fun _ hg => Graph.isPlain_of_isLegal (isLegal_of_mem_graphs h hg)

/-- The text of a source's graphs is read back as the graphs of its program. -/
theorem readGraphs_dot {source : String} {p : List Statement} (hlayout : layout.IsInline)
    (h : program source = .ok p) : readGraphs layout (dot layout p) = some (graphs p) := by
  rw [dot_eq]
  exact readGraphs_renderGraphs hlayout (graphs_isPlain (program_wellFormed h).1)

/-- **The text of graphs is faithful.** Under a layout without line breaks, the graphs of every
    program that a source has are read back from the text that the source is compiled to: machines,
    items and edges, with their names and in their order, and nothing else. So two such sources have the
    same text exactly if their programs have the same graphs. -/
theorem readGraphs_compile (layout : Layout) (hlayout : layout.IsInline) :
    (∀ source p, program source = .ok p →
      ∃ text, compile layout source = .ok text ∧ readGraphs layout text = some (graphs p)) ∧
    (∀ source source' p p', program source = .ok p → program source' = .ok p' →
      (compile layout source = compile layout source' ↔ graphs p = graphs p')) := by
  have hcompile : ∀ source p, program source = .ok p →
      compile layout source = .ok (dot layout p) := by
    intro source p h
    unfold compile
    rw [h]
    rfl
  refine ⟨fun source p h => ⟨_, hcompile source p h, readGraphs_dot hlayout h⟩, ?_⟩
  intro source source' p p' h h'
  rw [hcompile source p h, hcompile source' p' h']
  constructor
  -- Equal texts are read as equal graphs.
  · intro htext
    have hread := readGraphs_dot hlayout h
    rw [Except.ok.inj htext, readGraphs_dot hlayout h'] at hread
    exact (Option.some.inj hread).symm
  · intro hgraphs
    rw [dot_eq, dot_eq, hgraphs]

/-- A machine whose state leads to itself and to another one, under the standard layout. -/
theorem readGraphs_compile_standard :
    let source :=
      "def m \x7b START -> a ; STATE a -> \x7b go -> [SELF, b] ; \x7d ; ACCEPT -> [b] ; \x7d ;"
    Layout.standard.IsInline ∧
      ∃ text, compile .standard source = .ok text ∧
        readGraphs .standard text =
          some [⟨"m", [.entry "a", .edge "a" "a" "go", .edge "a" "b" "go", .accept "b"]⟩] := by
  have hinline : Layout.standard.IsInline := ⟨by decide, by decide, by decide⟩
  refine ⟨hinline, ?_⟩
  exact (readGraphs_compile .standard hinline).1 _
    [.machine "m" [.start "a", .stateDef "a" [.transition "go" ["SELF", "b"]], .accept ["b"]]]
    (by decide +kernel)

end StateDiagram

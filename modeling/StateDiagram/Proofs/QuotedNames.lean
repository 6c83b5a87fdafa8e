import StateDiagram.Proofs.GraphReader

/-!
# `Proofs.QuotedNames` — what stands between quotes

The text of graphs has quotes around names and around the size of the canvas, and nowhere else. What
stands between two quotes that are next to each other is then a name, the size, or what separates two
names, and that never looks like a name. So the words between quotes in a text are names of its
graphs; those are legal when the graphs are a program's, and the target that leads back is not.

## Contents

* `IsQuoting`, `IsQuoting.append` — texts with quotes around names only;
* `IsQuoting.of_infix` — the words between quotes in such a text are its names;
* `Layout.IsUnquoted`, `Item.isQuoting_render`, `isQuoting_renderGraphs` — the text of graphs is one;
* `mem_usedNames_of_infix` — so the words between quotes in it are names of the graphs;
* `infix_renderGraphs` — and the text of every item stands in it;
* `isLegal_of_infix_dot` — the words between quotes in the text of a program are legal names;
* `loopTarget_never_written` — the target that leads back is none, and is written as its own state.
-/

namespace StateDiagram

variable {P : String → Prop} {name word t : String} {c : Char} {cs ds text rest : List Char}

/-! ## Quotes around names -/

/-- **A text with quotes around names only**, for which `P` holds. What follows the second quote of a
    name is no character of names. -/
inductive IsQuoting (P : String → Prop) : List Char → Prop where
  | nil : IsQuoting P []
  | other {c : Char} {cs : List Char} : c ≠ '"' → IsQuoting P cs → IsQuoting P (c :: cs)
  | name {name : String} {c : Char} {cs : List Char} :
      P name → '"' ∉ name.toList → isNameChar c = false → IsQuoting P (c :: cs) →
      IsQuoting P ((inQuotes name).toList ++ c :: cs)

theorem IsQuoting.append (hcs : IsQuoting P cs) (hds : IsQuoting P ds) : IsQuoting P (cs ++ ds) := by
  induction hcs with
  | nil => exact hds
  | other hc _ ih => exact .other hc ih
  | name hname hquote hc _ ih =>
      rw [List.append_assoc]
      exact .name hname hquote hc ih

/-- A text without quotes. -/
theorem isQuoting_of_not_mem (h : '"' ∉ cs) : IsQuoting P cs := by
  induction cs with
  | nil => exact .nil
  | cons c cs ih =>
      have hc : c ≠ '"' := fun heq => h (heq ▸ List.mem_cons_self)
      exact .other hc (ih fun hmem => h (List.mem_cons_of_mem c hmem))

/-- A name between quotes, and a text without quotes that cannot go on with a name. -/
theorem IsQuoting.cons_name (hname : P name) (hquote : '"' ∉ name.toList) (ht : '"' ∉ t.toList)
    (hapart : t.toList.head?.all isNameChar = false) (hrest : IsQuoting P rest) :
    IsQuoting P ((inQuotes name).toList ++ (t.toList ++ rest)) := by
  have htext : IsQuoting P (t.toList ++ rest) := (isQuoting_of_not_mem ht).append hrest
  cases hcs : t.toList with
  | nil =>
      rw [hcs] at hapart
      cases hapart
  | cons c cs =>
      rw [hcs] at hapart htext
      exact .name hname hquote hapart htext

/-- Texts with quotes around names only, one after the other, are such a text. -/
theorem isQuoting_flatMap {α : Type} {f : α → List Char} {xs : List α}
    (h : ∀ x ∈ xs, IsQuoting P (f x)) : IsQuoting P (xs.flatMap f) := by
  induction xs with
  | nil => exact .nil
  | cons x xs ih =>
      rw [List.forall_mem_cons] at h
      rw [List.flatMap_cons]
      exact h.1.append (ih h.2)

/-- A stretch of a text that begins with a character stands past all that lacks it. -/
theorem infix_of_infix_append (h : c ∉ cs) (hin : c :: text <:+: cs ++ ds) :
    c :: text <:+: ds := by
  induction cs with
  | nil => exact hin
  | cons d cs ih =>
      rw [List.mem_cons, not_or] at h
      rcases List.infix_cons_iff.mp hin with hstart | hlater
      · exact absurd (List.cons_prefix_cons.mp hstart).1 h.1
      · exact ih h.2 hlater

theorem inQuotes_append (name : String) (rest : List Char) :
    (inQuotes name).toList ++ rest = '"' :: (name.toList ++ '"' :: rest) := by
  rw [toList_inQuotes, List.cons_append, List.append_assoc]
  rfl

/-- **Where a name between quotes begins a text**, another one is it, or stands past it: the second quote
    of the name and a later one have no word between them. -/
theorem eq_or_infix_of_infix_name (hword : isNameText word = true) (hquote : '"' ∉ name.toList)
    (hc : isNameChar c = false)
    (hin : (inQuotes word).toList <:+: (inQuotes name).toList ++ c :: cs) :
    name = word ∨ (inQuotes word).toList <:+: c :: cs := by
  simp only [isNameText, Bool.and_eq_true, List.all_eq_true] at hword
  obtain ⟨hne, hchars⟩ := hword
  have hplain : '"' ∉ word.toList := fun hmem => absurd (hchars _ hmem) (by decide)
  have hcons := toList_inQuotes word
  rw [inQuotes_append] at hin
  rcases List.infix_cons_iff.mp hin with ⟨after, hstart⟩ | hlater
  -- Two names between quotes at one place are read as one name.
  · have hread : readName? ((inQuotes word).toList ++ after) = some (word, after) :=
      readName?_inQuotes hplain
    rw [hstart, ← inQuotes_append, readName?_inQuotes hquote] at hread
    exact .inl (congrArg Prod.fst (Option.some.inj hread))
  · rw [hcons] at hlater
    rcases List.infix_cons_iff.mp (infix_of_infix_append hquote hlater) with hstart | hlater
    · have hbegins := (List.cons_prefix_cons.mp hstart).2
      cases htext : word.toList with
      | nil => simp [htext] at hne
      | cons d ds =>
          rw [htext, List.cons_append] at hbegins
          obtain rfl := (List.cons_prefix_cons.mp hbegins).1
          have hd := hchars d (by simp [htext])
          rw [hc] at hd
          cases hd
    · rw [hcons]
      exact .inr hlater

/-- **A word between quotes is a name of the text**, if the text has quotes around names only. -/
theorem IsQuoting.of_infix (h : IsQuoting P cs) (hword : isNameText word = true)
    (hin : (inQuotes word).toList <:+: cs) : P word := by
  induction h with
  | nil =>
      rw [toList_inQuotes] at hin
      exact absurd (List.infix_nil.mp hin) (List.cons_ne_nil _ _)
  | other hc _ ih =>
      rcases List.infix_cons_iff.mp hin with hstart | hlater
      · rw [toList_inQuotes] at hstart
        exact absurd (List.cons_prefix_cons.mp hstart).1.symm hc
      · exact ih hlater
  | name hname hquote hc _ ih =>
      rcases eq_or_infix_of_infix_name hword hquote hc hin with rfl | hlater
      · exact hname
      · exact ih hlater

/-! ## The text of graphs -/

/-- No text of the layout has a quote. -/
def Layout.IsUnquoted (layout : Layout) : Prop :=
  '"' ∉ layout.rankdir.toList ∧ '"' ∉ layout.size.toList ∧ '"' ∉ layout.initialNode.toList
deriving Decidable

variable {layout : Layout} {item : Item} {g : Graph} {gs : List Graph}

/-- The text of an item has quotes around its names only. -/
theorem Item.isQuoting_render (hlayout : layout.IsUnquoted) (h : item.IsPlain)
    (hnames : ∀ n ∈ item.usedNames, P n) : IsQuoting P (item.render layout).toList := by
  cases item with
  | entry state =>
      have hpoint : '"' ∉ (layout.initialNode ++ " [shape=point];\n" ++ layout.initialNode ++
          " -> ").toList := by
        simp [hlayout.2.2]
      have hstate : IsQuoting P ((inQuotes state).toList ++ ("\n".toList ++ [])) :=
        .cons_name (hnames state List.mem_cons_self) h.1 (by decide) (by decide) .nil
      simpa [Item.render] using (isQuoting_of_not_mem hpoint).append hstate
  | accept state =>
      have hstate : IsQuoting P ((inQuotes state).toList ++ (" [shape=doublecircle];\n".toList ++ [])) :=
        .cons_name (hnames state List.mem_cons_self) h.1 (by decide) (by decide) .nil
      simpa [Item.render] using hstate
  | edge source target label =>
      obtain ⟨hsource, htarget, hlabel, hne⟩ := h
      simp only [Item.usedNames, List.forall_mem_cons] at hnames
      have hmark : IsQuoting P ((inQuotes label).toList ++ ("]\n".toList ++ [])) :=
        .cons_name hnames.2.2.1 hlabel.1 (by decide) (by decide) .nil
      have harrow : IsQuoting P ((inQuotes target).toList ++ (" [label=".toList ++ _)) :=
        .cons_name hnames.2.1 htarget.1 (by decide) (by decide) hmark
      have hedge : IsQuoting P ((inQuotes source).toList ++ (" -> ".toList ++ _)) :=
        .cons_name hnames.1 hsource.1 (by decide) (by decide) harrow
      simpa [Item.render, if_neg hne] using hedge

/-- The text of a graph has quotes around its names and the size of the canvas only. -/
theorem Graph.isQuoting_render (hlayout : layout.IsUnquoted) (h : g.IsPlain)
    (hnames : ∀ n ∈ g.usedNames, P n) (hsize : P layout.size) :
    IsQuoting P (g.render layout).toList := by
  obtain ⟨hname, hitems⟩ := List.forall_mem_cons.mp hnames
  have hparts : IsQuoting P (String.join (g.items.map (Item.render layout))).toList := by
    rw [String.toList_join, List.flatMap_map]
    refine isQuoting_flatMap fun item hitem => ?_
    exact item.isQuoting_render hlayout (h.2 item hitem) fun n hn =>
      hitems n (List.mem_flatMap.mpr ⟨item, hitem, hn⟩)
  have hclosed : IsQuoting P (_ ++ "\x7d\n".toList) :=
    hparts.append (isQuoting_of_not_mem (by decide))
  have hcanvas : IsQuoting P ((inQuotes layout.size).toList ++ ("\n".toList ++ _)) :=
    .cons_name hsize hlayout.2.1 (by decide) (by decide) hclosed
  have hranks : '"' ∉ ("rankdir=" ++ layout.rankdir ++ ";\n" ++ "size=").toList := by
    simp [hlayout.1]
  have hhead : IsQuoting P ((inQuotes g.name).toList ++ (" \x7b\n".toList ++ _)) :=
    .cons_name hname h.1.1 (by decide) (by decide) ((isQuoting_of_not_mem hranks).append hcanvas)
  have hgraph : IsQuoting P ("digraph ".toList ++ _) :=
    (isQuoting_of_not_mem (by decide)).append hhead
  unfold Graph.render
  simpa only [String.toList_append, List.append_assoc] using hgraph

/-- **The text of graphs has quotes around their names** and the size of the canvas only. -/
theorem isQuoting_renderGraphs (hlayout : layout.IsUnquoted) (h : ∀ g ∈ gs, g.IsPlain)
    (hnames : ∀ g ∈ gs, ∀ n ∈ g.usedNames, P n) (hsize : P layout.size) :
    IsQuoting P (renderGraphs layout gs).toList := by
  rw [renderGraphs, String.toList_join, List.flatMap_map]
  exact isQuoting_flatMap fun g hg => g.isQuoting_render hlayout (h g hg) (hnames g hg) hsize

/-- The words between quotes in the text of graphs are names of these, if the size of the canvas is not a
    word. -/
theorem mem_usedNames_of_infix (hlayout : layout.IsUnquoted) (hsize : isNameText layout.size = false)
    (h : ∀ g ∈ gs, g.IsPlain) (hword : isNameText word = true)
    (hin : (inQuotes word).toList <:+: (renderGraphs layout gs).toList) :
    ∃ g ∈ gs, word ∈ g.usedNames := by
  have hquoting := isQuoting_renderGraphs (P := fun n => n = layout.size ∨ ∃ g ∈ gs, n ∈ g.usedNames)
    hlayout h (fun g hg n hn => .inr ⟨g, hg, hn⟩) (.inl rfl)
  rcases hquoting.of_infix hword hin with rfl | hmem
  · rw [hsize] at hword
    cases hword
  · exact hmem

/-- Each of several texts stands in their text. -/
theorem infix_join {texts : List String} (h : t ∈ texts) : t.toList <:+: (String.join texts).toList := by
  rw [String.toList_join, List.flatMap_def]
  exact List.infix_of_mem_flatten (List.mem_map_of_mem h)

/-- **The text of an item stands in the text of its graphs.** -/
theorem infix_renderGraphs (hg : g ∈ gs) (hitem : item ∈ g.items) :
    (item.render layout).toList <:+: (renderGraphs layout gs).toList := by
  have hparts : (item.render layout).toList <:+: (g.render layout).toList := by
    unfold Graph.render
    rw [String.toList_append, String.toList_append]
    have hjoin : (item.render layout).toList <:+:
        (String.join (g.items.map (Item.render layout))).toList :=
      infix_join (List.mem_map_of_mem hitem)
    exact hjoin.trans (List.infix_append _ _ _)
  exact hparts.trans (infix_join (List.mem_map_of_mem hg))

/-! ## The text of a source -/

variable {inState : Bool} {p body block : List Statement} {m s label target : String}
  {targets : List String}

/-- Each target of a transition is an edge from its state, to the state that the target means. -/
theorem exists_edge_of_mem (hm : .machine m body ∈ p) (hs : .stateDef s block ∈ body)
    (htransition : .transition label targets ∈ block) (htarget : target ∈ targets) :
    ∃ g ∈ graphs p, .edge s (resolve s target) label ∈ g.items := by
  have hedge : .edge s (resolve s target) label ∈ Item.edges s (.transition label targets) :=
    List.mem_map_of_mem htarget
  have hitem : .edge s (resolve s target) label ∈ Item.ofStatement (.stateDef s block) :=
    List.mem_flatMap.mpr ⟨_, htransition, hedge⟩
  exact ⟨⟨m, body.flatMap Item.ofStatement⟩, List.mem_filterMap.mpr ⟨_, hm, rfl⟩,
    List.mem_flatMap.mpr ⟨_, hs, hitem⟩⟩

/-- **The words between quotes in the text of a program are legal names.** -/
theorem isLegal_of_infix_dot (hlayout : layout.IsUnquoted) (hsize : isNameText layout.size = false)
    (h : WellFormed inState p) (hword : isNameText word = true)
    (hin : (inQuotes word).toList <:+: (dot layout p).toList) : IsLegal word := by
  rw [dot_eq] at hin
  obtain ⟨g, hg, hmem⟩ := mem_usedNames_of_infix hlayout hsize (graphs_isPlain h) hword hin
  exact isLegal_of_mem_graphs h hg word hmem

/-- **The target that leads back is never written.** Under the standard layout, no text of a source has
    it between quotes. Wherever the program of a source has it, the text has an edge from the state
    to itself instead; and programs may have it among any targets, in any state of any machine. -/
theorem loopTarget_never_written :
    (∀ source text, compile .standard source = .ok text →
      ¬ (inQuotes loopTarget).toList <:+: text.toList) ∧
    (∀ source p, program source = .ok p →
      ∃ text, compile .standard source = .ok text ∧
        ∀ m body s block label targets, .machine m body ∈ p → .stateDef s block ∈ body →
          .transition label targets ∈ block → loopTarget ∈ targets →
          (Item.render .standard (.edge s s label)).toList <:+: text.toList) ∧
    (∀ p, WellFormed false p → height p ≤ 256 → ∃ source, program source = .ok p) := by
  refine ⟨fun source text h hin => ?_, fun source p h => ?_, fun p h hheight => ?_⟩
  · obtain ⟨p, hp, rfl⟩ := compile_eq_ok_iff.mp h
    have hlegal := isLegal_of_infix_dot (by decide) (by decide) (program_wellFormed hp).1
      (by decide) hin
    exact absurd (by decide) hlegal.2
  · refine ⟨dot .standard p, compile_eq_ok_iff.mpr ⟨p, h, rfl⟩, ?_⟩
    intro m body s block label targets hm hs htransition htarget
    obtain ⟨g, hg, hitem⟩ := exists_edge_of_mem hm hs htransition htarget
    have hresolve : resolve s loopTarget = s := if_pos (by decide)
    rw [hresolve] at hitem
    rw [dot_eq]
    exact infix_renderGraphs hg hitem
  · exact exists_source h hheight

/-- Two machines with transitions back under one label, under several, and beside other targets. -/
theorem loopTarget_never_written_mixed :
    let source := "def m \x7b STATE a -> \x7b x -> [SELF, b, SELF] ; y -> [SELF] ; \x7d ; \x7d ; " ++
      "def n \x7b START -> a ; STATE a -> \x7b z -> [SELF] ; \x7d ; \x7d ;"
    ∃ text, compile .standard source = .ok text ∧ ¬ (inQuotes loopTarget).toList <:+: text.toList ∧
      "\"a\" -> \"a\" [label=\"x\"]\n".toList <:+: text.toList ∧
      "\"a\" -> \"a\" [label=\"z\"]\n".toList <:+: text.toList := by
  intro source
  have hprogram : program source = .ok
      [.machine "m" [.stateDef "a" [.transition "x" ["SELF", "b", "SELF"], .transition "y" ["SELF"]]],
        .machine "n" [.start "a", .stateDef "a" [.transition "z" ["SELF"]]]] := by
    decide +kernel
  obtain ⟨hhidden, hedges, -⟩ := loopTarget_never_written
  obtain ⟨text, htext, hedge⟩ := hedges source _ hprogram
  refine ⟨text, htext, hhidden source text htext, ?_, ?_⟩
  · exact hedge "m" _ "a" _ "x" ["SELF", "b", "SELF"] List.mem_cons_self List.mem_cons_self
      List.mem_cons_self List.mem_cons_self
  · exact hedge "n" _ "a" _ "z" ["SELF"] (List.mem_cons_of_mem _ List.mem_cons_self)
      (List.mem_cons_of_mem _ List.mem_cons_self) List.mem_cons_self List.mem_cons_self

end StateDiagram

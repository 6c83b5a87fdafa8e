import StateDiagram.Proofs.Addresses
import StateDiagram.Proofs.GraphReader
import StateDiagram.Proofs.UniqueReading

/-!
# `Proofs.TreeView` — what the drawing of a program shows

The drawing of a program has a line for each statement, in the order of their addresses. A line shows
how deep its statement stands, by a group of two characters for each block around it; on which of these
levels more follows, by a bar in the group; whether more follows beside the statement, by the connector;
and the kind of the statement with its label, cut to thirty characters.

Depths and captions alone tell the tree: what the block of a statement holds are the lines below it that
stand deeper. So two programs have the same drawing exactly if they have the same statements at the same
addresses, as far as captions tell them apart.

## Contents

* `Row.line`, `toList_tree` — the lines of a drawing;
* `Row.line_inj` — a line tells its groups, its connector and its caption;
* `Statement.look`, `caption_eq_iff` — what a caption tells;
* `newline_not_mem_line` — no line of a well-formed program is broken;
* `SameLook`, `sameLook_cons` — two programs that look the same at every address;
* `SameLook.lines_eq`, `sameLook_of_shown` — they have the same lines, and lines tell so;
* `IsLineOf`, `IsDrawing`, `isDrawing_tree` — what a drawing shows;
* `tree_shows` — the drawings of the programs of sources.
-/

namespace StateDiagram

variable {s t : Statement} {ss ts p q : List Statement} {inState : Bool}

/-! ## Lines -/

/-- The groups of characters before a connector. -/
def Row.groups (r : Row) : List (List Char) :=
  r.guides.map fun more => (Row.guide more).toList

/-- The line of a row, without the line break at its end. -/
def Row.line (r : Row) : List Char :=
  r.groups.flatten ++ ((Row.connector r.isLast).toList ++ ' ' :: (Row.caption r.statement).toList)

theorem Row.toList_render (r : Row) : r.render.toList = r.line ++ ['\n'] := by
  have hblank : " ".toList = [' '] := by decide
  have hbreak : "\n".toList = ['\n'] := by decide
  unfold render line groups
  simp only [String.toList_append, String.toList_join, List.flatMap_map, ← List.flatMap_def, hblank,
    hbreak, List.append_assoc, List.cons_append, List.nil_append]

/-- **A drawing is made of the lines of its rows.** -/
theorem toList_tree (p : List Statement) : (tree p).toList = unlines ((outline p).map Row.line) := by
  unfold tree unlines
  rw [String.toList_join, List.flatMap_map, List.flatMap_map]
  exact List.flatMap_congr fun r _ => r.toList_render

/-- A row of a block is drawn with one more group in front. -/
theorem Row.line_under (more : Bool) (r : Row) :
    (r.under more).line = (Row.guide more).toList ++ r.line := by
  simp [line, groups, under]

/-- A group has a bar if more follows. -/
@[simp] theorem toList_guide (more : Bool) :
    (Row.guide more).toList = [if more then '│' else ' ', ' '] := by
  cases more <;> decide

/-- A connector has a corner if nothing follows. -/
@[simp] theorem toList_connector (isLast : Bool) :
    (Row.connector isLast).toList = [if isLast then '└' else '├', '─'] := by
  cases isLast <;> decide

/-- Two characters tell a truth value if the first depends on it. -/
theorem unmistakable_mark {yes no second : Char} (hne : yes ≠ no) (b : Bool) :
    Unmistakable (fun _ => True) (fun b : Bool => [if b then yes else no, second]) b := by
  intro b' r s _ _ h
  obtain ⟨hmark, hrest⟩ := List.cons.inj h
  refine ⟨?_, (List.cons.inj hrest).2⟩
  cases b with
  | true =>
      cases b' with
      | true => rfl
      | false => exact absurd hmark hne
  | false =>
      cases b' with
      | true => exact absurd hmark.symm hne
      | false => rfl

/-- A group shows whether more follows, -/
theorem unmistakable_guide (more : Bool) :
    Unmistakable (fun _ => True) (fun more => (Row.guide more).toList) more := by
  simp only [toList_guide]
  exact unmistakable_mark (by decide) more

/-- and a connector whether its statement is the last of a block. -/
theorem unmistakable_connector (isLast : Bool) :
    Unmistakable (fun _ => True) (fun isLast => (Row.connector isLast).toList) isLast := by
  simp only [toList_connector]
  exact unmistakable_mark (by decide) isLast

/-- A connector is no group. -/
theorem closes_connector (isLast : Bool) (rest : List Char) :
    Closes (fun _ => True) (fun more => (Row.guide more).toList)
      ((Row.connector isLast).toList ++ rest) where
  follows := trivial
  no_part more rest' h := by
    simp only [toList_guide, toList_connector, List.cons_append] at h
    obtain ⟨hmark, -⟩ := List.cons.inj h
    cases more <;> cases isLast <;> exact absurd hmark (by decide)

/-- **A line tells all that it shows**: its groups, its connector and its caption. -/
theorem Row.line_inj {r r' : Row} (h : r.line = r'.line) :
    r.guides = r'.guides ∧ r.isLast = r'.isLast ∧
      Row.caption r.statement = Row.caption r'.statement := by
  unfold line groups at h
  rw [← List.flatMap_def, ← List.flatMap_def] at h
  obtain ⟨hguides, hrest⟩ := Unmistakable.list (fun more _ => unmistakable_guide more)
    (fun _ _ => trivial) (closes_connector _ _) (closes_connector _ _) h
  obtain ⟨hlast, hcaption⟩ := unmistakable_connector _ trivial trivial hrest
  exact ⟨hguides, hlast, String.toList_inj.mp (List.cons.inj hcaption).2⟩

/-! ## Captions -/

/-- What is seen of a statement: its kind, and its label cut to thirty characters. -/
def Statement.look (s : Statement) : String × String :=
  (s.nodeType, abbreviate 30 s.label)

theorem not_mem_nodeType (s : Statement) :
    ':' ∉ s.nodeType.toList ∧ '\n' ∉ s.nodeType.toList := by
  cases s <;> simp only [Statement.nodeType] <;> decide

/-- Nothing is cut to nothing. -/
theorem abbreviate_eq_empty {limit : Nat} {text : String} :
    abbreviate limit text = "" ↔ text = "" := by
  unfold abbreviate
  split
  next hlong =>
    constructor
    · intro h
      have hdots := congrArg String.toList h
      simp at hdots
    · rintro rfl
      exact absurd hlong (Nat.not_lt_zero limit)
  next => exact Iff.rfl

/-- What stands behind the kind in a caption: nothing, or a colon and the label. -/
def captionTail (label : String) : List Char :=
  if label = "" then [] else ':' :: ' ' :: label.toList

theorem captionTail_inj {label label' : String} (h : captionTail label = captionTail label') :
    label = label' := by
  unfold captionTail at h
  split at h
  next hempty =>
    split at h
    next hempty' => rw [hempty, hempty']
    next => cases h
  next =>
    split at h
    next => cases h
    next => exact String.toList_inj.mp (List.cons.inj (List.cons.inj h).2).2

theorem toList_caption (s : Statement) :
    (Row.caption s).toList = s.nodeType.toList ++ captionTail s.look.2 := by
  have hcolon : ": ".toList = [':', ' '] := by decide
  unfold Row.caption captionTail Statement.look
  simp only [abbreviate_eq_empty]
  split
  next => exact (List.append_nil _).symm
  next =>
    simp only [String.toList_append, hcolon, List.append_assoc, List.cons_append, List.nil_append]

/-- **A caption tells what is seen of a statement.** -/
theorem caption_eq_iff : Row.caption s = Row.caption t ↔ s.look = t.look := by
  rw [← String.toList_inj, toList_caption, toList_caption]
  constructor
  · intro h
    -- The kind is over at the first colon, or with the caption.
    have hkind (s : Statement) : ∀ c ∈ s.nodeType.toList, decide (c ≠ ':') = true :=
      fun c hc => decide_eq_true fun heq => (not_mem_nodeType s).1 (heq ▸ hc)
    have htail (label : String) : Stops (fun c => decide (c ≠ ':')) (captionTail label) := by
      unfold captionTail
      split <;> simp
    obtain ⟨htype, hlabel⟩ := eq_of_run_append (hkind s) (hkind t) (htail _) (htail _) h
    exact Prod.ext (String.toList_inj.mp htype) (captionTail_inj hlabel)
  · intro h
    have htype : s.nodeType = t.nodeType := congrArg Prod.fst h
    rw [htype, h]

/-! ## Unbroken lines -/

/-- A character of names that are joined is one of a name, or of what is put in between. -/
theorem mem_toList_intercalate {c : Char} {sep : String} {names : List String}
    (h : c ∈ (String.intercalate sep names).toList) :
    c ∈ sep.toList ∨ ∃ name ∈ names, c ∈ name.toList := by
  induction names with
  | nil => simp at h
  | cons name names ih =>
      cases names with
      | nil =>
          rw [String.intercalate_singleton] at h
          exact .inr ⟨name, List.mem_singleton_self _, h⟩
      | cons next names =>
          rw [String.intercalate_cons_cons, String.toList_append, String.toList_append,
            List.append_assoc, List.mem_append, List.mem_append] at h
          rcases h with h | h | h
          · exact .inr ⟨name, List.mem_cons_self, h⟩
          · exact .inl h
          · rcases ih h with h | ⟨other, hother, h⟩
            · exact .inl h
            · exact .inr ⟨other, List.mem_cons_of_mem _ hother, h⟩

theorem newline_not_mem_bracketed {names : List String} (h : ∀ name ∈ names, '\n' ∉ name.toList) :
    '\n' ∉ (Statement.bracketed names).toList := by
  have hopen : '\n' ∉ "[".toList := by decide
  have hclose : '\n' ∉ "]".toList := by decide
  unfold Statement.bracketed
  simp only [String.toList_append, List.mem_append, not_or]
  refine ⟨⟨hopen, fun hbreak => ?_⟩, hclose⟩
  rcases mem_toList_intercalate hbreak with hsep | ⟨name, hname, hbreak⟩
  · exact absurd hsep (by decide)
  · exact h name hname hbreak

theorem newline_not_mem_abbreviate {limit : Nat} {text : String} (h : '\n' ∉ text.toList) :
    '\n' ∉ (abbreviate limit text).toList := by
  have hdots : '\n' ∉ "...".toList := by decide
  unfold abbreviate
  split
  next =>
    rw [String.toList_append, String.toList_ofList, List.mem_append, not_or]
    exact ⟨fun hbreak => h (List.mem_of_mem_take hbreak), hdots⟩
  next => exact h

/-- The label of a well-formed statement is on one line. -/
theorem newline_not_mem_label (h : s.WellFormed inState) : '\n' ∉ s.label.toList := by
  have hplain {name : String} (hlegal : IsLegal name) : '\n' ∉ name.toList := hlegal.isPlain.1.2
  cases s with
  | beginMark | endMark => exact List.not_mem_nil
  | machine name body | stateDef name body => exact hplain h.1
  | start state => exact hplain h
  | accept states => exact newline_not_mem_bracketed fun state hstate => hplain (h state hstate)
  | transition label targets =>
      obtain ⟨-, hlabel, htargets⟩ := h
      have harrow : '\n' ∉ " -> ".toList := by decide
      have hnames : ∀ target ∈ targets, '\n' ∉ target.toList := by
        intro target htarget
        rcases htargets target htarget with hlegal | rfl
        · exact hplain hlegal
        · decide
      show '\n' ∉ (label ++ " -> " ++ Statement.bracketed targets).toList
      simp only [String.toList_append, List.mem_append, not_or]
      exact ⟨⟨hplain hlabel, harrow⟩, newline_not_mem_bracketed hnames⟩

/-- So is its caption, -/
theorem newline_not_mem_caption (h : s.WellFormed inState) : '\n' ∉ (Row.caption s).toList := by
  have hlabel : '\n' ∉ s.look.2.toList := newline_not_mem_abbreviate (newline_not_mem_label h)
  rw [toList_caption, List.mem_append, not_or]
  refine ⟨(not_mem_nodeType s).2, ?_⟩
  unfold captionTail
  split <;> simp [hlabel]

/-- and so its line in a drawing. -/
theorem newline_not_mem_line {r : Row} (h : r.statement.WellFormed inState) : '\n' ∉ r.line := by
  have hguide (more : Bool) : '\n' ∉ (Row.guide more).toList := by
    cases more <;> decide
  have hconnector (isLast : Bool) : '\n' ∉ (Row.connector isLast).toList := by
    cases isLast <;> decide
  have hgroups : '\n' ∉ r.groups.flatten := by
    intro hbreak
    obtain ⟨group, hgroup, hbreak⟩ := List.mem_flatten.mp hbreak
    obtain ⟨more, -, rfl⟩ := List.mem_map.mp hgroup
    exact hguide more hbreak
  unfold Row.line
  simp only [List.mem_append, List.mem_cons, not_or]
  exact ⟨hgroups, hconnector _, by decide, newline_not_mem_caption h⟩

theorem Statement.WellFormed.children (h : s.WellFormed inState) :
    ∃ inState', StateDiagram.WellFormed inState' s.children := by
  cases s with
  | machine name body | stateDef name body => exact ⟨_, h.2⟩
  | _ => exact ⟨false, trivial⟩

/-- The statements in the rows of a well-formed program are well-formed. -/
theorem wellFormed_of_mem_outline (h : WellFormed inState p) :
    ∀ r ∈ outline p, ∃ inState', r.statement.WellFormed inState' := by
  induction p using program_induction generalizing inState with
  | nil => exact List.forall_mem_nil _
  | cons s ss ihBelow ihBeside =>
      obtain ⟨_, hbelow⟩ := h.1.children
      rw [outline_cons, List.forall_mem_cons, List.forall_mem_append]
      refine ⟨⟨_, h.1⟩, ?_, ihBeside h.2⟩
      intro row hrow
      obtain ⟨r, hr, rfl⟩ := List.mem_map.mp hrow
      exact ihBelow hbelow r hr

/-- **A drawing of a well-formed program is split into the lines of its rows.** -/
theorem splitOn_tree (h : WellFormed inState p) :
    (tree p).toList.splitOn '\n' = (outline p).map Row.line ++ [[]] := by
  rw [toList_tree]
  apply splitOn_unlines
  intro line hline
  obtain ⟨r, hr, rfl⟩ := List.mem_map.mp hline
  obtain ⟨_, hwell⟩ := wellFormed_of_mem_outline h r hr
  exact newline_not_mem_line hwell

/-! ## Programs that look the same -/

/-- **Two programs look the same**: there are statements at the same addresses, and of each the same is
    seen. -/
def SameLook (p q : List Statement) : Prop :=
  ∀ a, (statementAt? p a).map Statement.look = (statementAt? q a).map Statement.look

theorem sameLook_nil_iff : SameLook [] q ↔ q = [] := by
  constructor
  · intro h
    cases q with
    | nil => rfl
    | cons t ts => exact nomatch h [0]
  · rintro rfl a
    rfl

theorem not_sameLook_nil : ¬ SameLook (s :: ss) [] := by
  intro h
  exact nomatch h [0]

/-- **Programs look the same piece by piece.** -/
theorem sameLook_cons :
    SameLook (s :: ss) (t :: ts) ↔
      s.look = t.look ∧ SameLook s.children t.children ∧ SameLook ss ts := by
  constructor
  · intro h
    refine ⟨Option.some.inj (h [0]), fun a => ?_, fun a => ?_⟩
    · cases a with
      | nil => rfl
      | cons i a => exact h (0 :: i :: a)
    · have hbeside := h (a.modifyHead (· + 1))
      rwa [statementAt?_beside, statementAt?_beside] at hbeside
  · rintro ⟨hlook, hbelow, hbeside⟩ a
    match a with
    | [] => rfl
    | [0] => exact congrArg some hlook
    | 0 :: i :: a => exact hbelow (i :: a)
    | (i + 1) :: a => exact hbeside (i :: a)

theorem SameLook.isEmpty_eq (h : SameLook p q) : p.isEmpty = q.isEmpty := by
  cases p with
  | nil => rw [sameLook_nil_iff.mp h]
  | cons s ss =>
      cases q with
      | nil => exact absurd h not_sameLook_nil
      | cons t ts => rfl

/-- Rows are drawn alike where the same stands around them and the same is seen. -/
theorem Row.line_congr {guides : List Bool} {isLast : Bool} (h : s.look = t.look) :
    Row.line ⟨guides, isLast, s⟩ = Row.line ⟨guides, isLast, t⟩ := by
  unfold line groups
  rw [caption_eq_iff.mpr h]

/-- **Programs that look the same are drawn alike.** -/
theorem SameLook.lines_eq (h : SameLook p q) :
    (outline p).map Row.line = (outline q).map Row.line := by
  induction p using program_induction generalizing q with
  | nil => rw [sameLook_nil_iff.mp h]
  | cons s ss ihBelow ihBeside =>
      cases q with
      | nil => exact absurd h not_sameLook_nil
      | cons t ts =>
          obtain ⟨hlook, hbelow, hbeside⟩ := sameLook_cons.mp h
          have hblock (s : Statement) (more : Bool) :
              ((outline s.children).map (Row.under more)).map Row.line =
                ((outline s.children).map Row.line).map ((Row.guide more).toList ++ ·) := by
            simp only [List.map_map, Function.comp_def, Row.line_under]
          rw [outline_cons, outline_cons, hbeside.isEmpty_eq]
          simp only [List.map_cons, List.map_append]
          rw [hblock s, hblock t, ihBelow hbelow, ihBeside hbeside, Row.line_congr hlook]

/-- How deep a statement stands, and what is seen of it. -/
def Row.shown (r : Row) : Nat × String × String :=
  (r.depth, r.statement.look)

/-- What the rows of a program show. -/
def shown (p : List Statement) : List (Nat × String × String) :=
  (outline p).map Row.shown

/-- One level deeper. -/
def deeper (x : Nat × String × String) : Nat × String × String :=
  (x.1 + 1, x.2)

theorem deeper_injective : Function.Injective deeper := by
  rintro ⟨depth, look⟩ ⟨depth', look'⟩ h
  obtain ⟨hdepth, rfl⟩ := Prod.mk.inj h
  obtain rfl := Nat.succ.inj hdepth
  rfl

theorem shown_cons (s : Statement) (ss : List Statement) :
    shown (s :: ss) = (0, s.look) :: ((shown s.children).map deeper ++ shown ss) := by
  unfold shown
  rw [outline_cons, List.map_cons, List.map_append, List.map_map, List.map_map]
  rfl

/-- **Depths and captions tell the tree**: what a block holds stands deeper, and what follows the block
    does not. -/
theorem sameLook_of_shown (h : shown p = shown q) : SameLook p q := by
  induction p using program_induction generalizing q with
  | nil =>
      cases q with
      | nil => exact sameLook_nil_iff.mpr rfl
      | cons t ts =>
          rw [shown_cons] at h
          cases h
  | cons s ss ihBelow ihBeside =>
      cases q with
      | nil =>
          rw [shown_cons] at h
          cases h
      | cons t ts =>
          rw [shown_cons, shown_cons] at h
          obtain ⟨hfirst, hrest⟩ := List.cons.inj h
          have hdeep (p : List Statement) :
              ∀ x ∈ (shown p).map deeper, decide (x.1 ≠ 0) = true := by
            intro x hx
            obtain ⟨y, -, rfl⟩ := List.mem_map.mp hx
            exact decide_eq_true (Nat.succ_ne_zero y.1)
          have hflat (p : List Statement) : Stops (fun x => decide (x.1 ≠ 0)) (shown p) := by
            cases p with
            | nil => exact stops_nil
            | cons s ss =>
                rw [shown_cons]
                exact stops_cons.mpr (decide_eq_false fun hne => hne rfl)
          obtain ⟨hbelow, hbeside⟩ := eq_of_run_append (hdeep _) (hdeep _) (hflat _) (hflat _) hrest
          exact sameLook_cons.mpr ⟨(Prod.mk.inj hfirst).2,
            ihBelow (List.map_injective_iff.mpr deeper_injective hbelow), ihBeside hbeside⟩

/-- **A line shows the depth of its row**, and what is seen of the statement. -/
theorem shown_factorsThrough_line : Row.shown.FactorsThrough Row.line := by
  intro r r' h
  obtain ⟨hguides, -, hcaption⟩ := Row.line_inj h
  have hdepth : r.depth = r'.depth := congrArg List.length hguides
  exact Prod.ext hdepth (caption_eq_iff.mp hcaption)

/-- Programs look the same if they are drawn alike. -/
theorem sameLook_of_lines_eq (h : (outline p).map Row.line = (outline q).map Row.line) :
    SameLook p q := by
  obtain ⟨readLine, hread⟩ := (Function.factorsThrough_iff _).mp shown_factorsThrough_line
  apply sameLook_of_shown
  unfold shown
  rw [hread, ← List.map_map, ← List.map_map, h]

/-! ## Drawings -/

/-- **What a line shows of the statement at an address**: a group of two characters for each block around
    it, with a bar if more follows the block; a connector, with a corner if nothing follows the statement;
    and the caption. -/
structure IsLineOf (program : List Statement) (a : Address) (s : Statement)
    (groups : List (List Char)) (connector line : List Char) : Prop where
  statement_eq : statementAt? program a = some s
  line_eq : line = groups.flatten ++ (connector ++ ' ' :: (Row.caption s).toList)
  length_groups : groups.length + 1 = a.length
  length_of_mem : ∀ group ∈ groups, group.length = 2
  bar_iff : ∀ (k : Nat) (group : List Char), groups[k]? = some group →
    (group.head? = some '│' ↔ HasLater program (a.take (k + 1)))
  connector_eq : connector = ['└', '─'] ∨ connector = ['├', '─']
  corner_iff : connector = ['└', '─'] ↔ ¬ HasLater program a

/-- **A drawing of a program**: its lines are those of all addresses, in lexicographic order. -/
structure IsDrawing (program : List Statement) (text : String) : Prop where
  mem_iff : ∀ a, a ∈ addresses program ↔ (statementAt? program a).isSome = true
  ordered : (addresses program).Pairwise (· < ·)
  lines : ∃ lines : List (List Char), text.toList.splitOn '\n' = lines ++ [[]] ∧
    List.Forall₂ (fun a line => ∃ s groups connector, IsLineOf program a s groups connector line)
      (addresses program) lines

/-- The line of a row shows what the row tells. -/
theorem Row.StandsAt.isLineOf {a : Address} {r : Row} (h : r.StandsAt p a) :
    IsLineOf p a r.statement r.groups (Row.connector r.isLast).toList r.line where
  statement_eq := h.statement_eq
  line_eq := rfl
  length_groups := by
    unfold groups
    rw [List.length_map]
    exact h.length_eq
  length_of_mem group hgroup := by
    obtain ⟨more, -, rfl⟩ := List.mem_map.mp hgroup
    cases more <;> decide
  bar_iff k group hgroup := by
    unfold groups at hgroup
    rw [List.getElem?_map, Option.map_eq_some_iff] at hgroup
    obtain ⟨more, hmore, rfl⟩ := hgroup
    rw [← h.guide_iff k more hmore, toList_guide]
    cases more <;> decide
  connector_eq := by
    rw [toList_connector]
    cases r.isLast <;> decide
  corner_iff := by
    rw [← h.isLast_iff, toList_connector]
    cases r.isLast <;> decide

/-- **A well-formed program is drawn.** -/
theorem isDrawing_tree (h : WellFormed inState p) : IsDrawing p (tree p) where
  mem_iff _ := mem_addresses_iff
  ordered := addresses_pairwise p
  lines := by
    refine ⟨(outline p).map Row.line, splitOn_tree h, ?_⟩
    rw [List.forall₂_map_right_iff]
    exact (standsAt_outline p).imp fun a r hr => ⟨_, _, _, hr.isLineOf⟩

/-- **Drawings of well-formed programs are the same exactly if the programs look the same.** -/
theorem tree_eq_iff {inState' : Bool} (hp : WellFormed inState p) (hq : WellFormed inState' q) :
    tree p = tree q ↔ SameLook p q := by
  constructor
  · intro h
    apply sameLook_of_lines_eq
    have hlines := splitOn_tree hp
    rw [h, splitOn_tree hq] at hlines
    exact (List.append_cancel_right hlines).symm
  · intro h
    rw [← String.toList_inj, toList_tree, toList_tree, h.lines_eq]

/-- **The drawing of a source's program shows the program**: a line for each statement, in order, with its
    depth, what follows on each level, its kind and its label; and two sources have the same drawing
    exactly if their programs look the same. -/
theorem tree_shows {source other : String} (hp : program source = .ok p)
    (hq : program other = .ok q) : IsDrawing p (tree p) ∧ (tree p = tree q ↔ SameLook p q) := by
  have hwell := (program_wellFormed hp).1
  exact ⟨isDrawing_tree hwell, tree_eq_iff hwell (program_wellFormed hq).1⟩

/-- Two programs that differ in a target which their drawings cut off. -/
theorem tree_shows_cut_label :
    let source := "STATE a -> \x7b go -> [the_first_target, the_second_one] ; \x7d ; END"
    let other := "STATE a -> \x7b go -> [the_first_target, the_second_two] ; \x7d ; END"
    let p : List Statement :=
      [.stateDef "a" [.transition "go" ["the_first_target", "the_second_one"]], .endMark]
    let q : List Statement :=
      [.stateDef "a" [.transition "go" ["the_first_target", "the_second_two"]], .endMark]
    let text := "├─ state-def: a\n│ └─ transition: go -> [the_first_target, the_s...\n└─ end\n"
    program source = .ok p ∧ program other = .ok q ∧ IsDrawing p text ∧ SameLook p q ∧ p ≠ q := by
  intro source other p q text
  have hp : program source = .ok p := by decide +kernel
  have hq : program other = .ok q := by decide +kernel
  have htext : tree p = text := by decide +kernel
  have htext' : tree q = text := by decide +kernel
  obtain ⟨hdrawing, hsame⟩ := tree_shows hp hq
  rw [htext] at hdrawing
  exact ⟨hp, hq, hdrawing, hsame.mp (htext.trans htext'.symm), by decide⟩

end StateDiagram

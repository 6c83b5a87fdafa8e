import StateDiagram.Proofs.DistinctKeys
import StateDiagram.Proofs.Overlay

/-!
# `Proofs.LastWriter` — which layer tells a field of the layout

A layout has three fields, and each is told by one layer alone. The last override of a field tells it, even
if files are laid over it later; without an override the last file tells it that says something about it;
without such a file it stays what it is by default. What a layer says about one field does not touch the
others, and what it says about anything else touches none.

The invariant is that settings tell a layout: three texts stand in a table under `graph`. Whatever a plain
layer puts, the settings tell a layout afterwards, and it is the one before but for the fields that the layer
says something about.

## Contents

* `LayoutField`, `Layout.get` — the fields of a layout by name;
* `Layer`, `Layers.add`, `Layers.build` — layers as they are added, and the layout of all;
* `Layer.fileText`, `Layer.overrideText` — what a layer says about a field;
* `PlainFields`, `Layer.Plain` — layers that put single values into the table;
* `Setting.Describes`, `Setting.Tells` — the invariant, of the table and of the settings;
* `Tells.putFields`, `Tells.put` — the two steps; `Tells.putFiles`, `Tells.putOverrides` — the two runs;
* `Layers.Records` — what becomes of the layers as they are added;
* `build_lastWriter` — the layout of all layers.
-/

namespace StateDiagram

open Setting (lowered)

/-! ## Fields and layers -/

/-- A field of a layout. -/
inductive LayoutField
  | rankdir
  | size
  | initialNode
deriving DecidableEq, Repr

/-- The name of a field in settings. -/
def LayoutField.name : LayoutField → String
  | rankdir => "rankdir"
  | size => "size"
  | initialNode => "initial_node"

theorem LayoutField.name_injective : Function.Injective LayoutField.name := by
  intro a b h
  cases a <;> cases b <;> first | rfl | exact absurd h (by decide)

/-- The key of a field, in small letters. -/
def LayoutField.key (field : LayoutField) : String :=
  "graph." ++ field.name

namespace Layout

/-- The text of a field. -/
def get (layout : Layout) : LayoutField → String
  | .rankdir => layout.rankdir
  | .size => layout.size
  | .initialNode => layout.initialNode

/-- A layout is told by its fields. -/
theorem eq_of_get {a b : Layout} (h : ∀ field, a.get field = b.get field) : a = b := by
  cases a
  cases b
  rw [Layout.mk.injEq]
  exact ⟨h .rankdir, h .size, h .initialNode⟩

/-- A layout with some fields said anew. -/
def updated (layout : Layout) (text : LayoutField → Option String) : Layout :=
  ⟨(text .rankdir).getD layout.rankdir, (text .size).getD layout.size,
    (text .initialNode).getD layout.initialNode⟩

@[simp] theorem get_updated (layout : Layout) (text : LayoutField → Option String)
    (field : LayoutField) : (layout.updated text).get field = (text field).getD (layout.get field) := by
  cases field <;> rfl

/-- Nothing said anew. -/
theorem updated_of_none {text : LayoutField → Option String} (h : ∀ field, text field = none)
    (layout : Layout) : layout.updated text = layout := by
  apply eq_of_get
  intro field
  rw [get_updated, h field, Option.getD_none]

/-- What is said last counts. -/
theorem updated_updated (layout : Layout)
    (first second : LayoutField → Option String) :
    (layout.updated first).updated second = layout.updated fun field => (second field).or (first field) := by
  apply eq_of_get
  intro field
  simp only [get_updated]
  cases second field <;> rfl

end Layout

/-- A layer: a file, or a value for a key. -/
inductive Layer
  | file (path : String)
  | override (key : String) (v : Setting)

namespace Layers

/-- One more layer. -/
def add (layers : Layers) : Layer → Except SettingsError Layers
  | .file path => .ok (layers.withFile path)
  | .override key v => layers.withOverride key v

/-- More layers, one after the other. -/
def addAll (layers : Layers) : List Layer → Except SettingsError Layers
  | [] => .ok layers
  | step :: steps =>
    match layers.add step with
    | .error e => .error e
    | .ok layers => layers.addAll steps

/-- The layout of all layers that were added. -/
def build (files : Files) (steps : List Layer) : Except SettingsError Layout :=
  match defaults.addAll steps with
  | .error e => .error e
  | .ok layers => layers.layout files

end Layers

/-! ## What layers say -/

/-- What the fields of a file say about a field of the layout. -/
def textIn (field : LayoutField) (fields : List (String × Setting)) : Option String :=
  ((fields.lookup "graph").bind (·.lookup field.name)).bind Setting.text?

/-- What a file says about a field. -/
def fileText (files : Files) (field : LayoutField) (path : String) : Option String :=
  match settingsFields files path with
  | .ok fields => textIn field fields
  | .error _ => none

theorem fileText_eq {files : Files} {field : LayoutField} {path : String}
    {fields : List (String × Setting)} (h : settingsFields files path = .ok fields) :
    fileText files field path = textIn field fields := by
  rw [fileText, h]

/-- What is said about a field where a key leads. -/
def keyText (field : LayoutField) : Key × Setting → Option String
  | ([.field outer, .field inner], v) =>
    if lowered outer = "graph" ∧ lowered inner = field.name then v.text? else none
  | _ => none

/-- A key that leads to a field says something about this field alone. -/
theorem keyText_of_eq {outer inner : String} {target : LayoutField} (houter : lowered outer = "graph")
    (hinner : lowered inner = target.name) (field : LayoutField) (v : Setting) :
    keyText field ([.field outer, .field inner], v) = if field = target then v.text? else none := by
  by_cases hfield : field = target
  · subst hfield
    rw [keyText, if_pos ⟨houter, hinner⟩, if_pos rfl]
  · have hne : lowered inner ≠ field.name := fun heq =>
      hfield (LayoutField.name_injective (heq.symm.trans hinner))
    rw [keyText, if_neg fun hboth => hne hboth.2, if_neg hfield]

/-- A key that leads somewhere else says nothing. -/
theorem keyText_of_ne {name : String} (h : lowered name ≠ "graph") (field : LayoutField) (rest : Key)
    (v : Setting) : keyText field (.field name :: rest, v) = none := by
  unfold keyText
  split
  next outer inner w heq =>
    have houter : name = outer := by
      injection heq with hkey
      injection hkey with hstep
      injection hstep
    exact if_neg fun hboth => h (houter ▸ hboth.1)
  next => rfl

namespace Layer

/-- The path of a file. -/
def path? : Layer → Option String
  | file path => some path
  | override _ _ => none

/-- What a layer says about a field if it is a file. -/
def fileText (files : Files) (field : LayoutField) (step : Layer) : Option String :=
  step.path?.bind (StateDiagram.fileText files field)

/-- What a layer says about a field if it is an override. Capitals in the key do not matter. -/
def overrideText (field : LayoutField) : Layer → Option String
  | file _ => none
  | override key v => if lowered key = field.key then v.text? else none

end Layer

/-! ## The last thing said -/

/-- The last thing said, of one thing said or not and all that is said after it. -/
theorem getLast?_filterMap_cons {α β : Type} (g : α → Option β) (x : α) (xs : List α) :
    ((x :: xs).filterMap g).getLast? = ((xs.filterMap g).getLast?).or (g x) := by
  cases hx : g x with
  | none => rw [List.filterMap_cons_none hx, Option.or_none]
  | some y =>
      rw [List.filterMap_cons_some hx, List.getLast?_cons]
      cases (xs.filterMap g).getLast? <;> rfl

/-- The last thing said, of all that is said and one thing said or not after it. -/
theorem getLast?_filterMap_concat {α β : Type} (g : α → Option β) (xs : List α) (x : α) :
    ((xs ++ [x]).filterMap g).getLast? = (g x).or (xs.filterMap g).getLast? := by
  rw [List.filterMap_append, List.getLast?_append]
  cases hx : g x with
  | none => rw [List.filterMap_cons_none hx]; rfl
  | some y => rw [List.filterMap_cons_some hx]; rfl

/-! ## Plain layers -/

/-- **The fields of a plain file**: names stand for themselves, and there is a table or nothing under
    `graph`; of what a layout needs, only single values are in the table. -/
structure PlainFields (fields : List (String × Setting)) : Prop where
  isPlainName : ∀ f ∈ fields, IsPlainName f.1
  graph : ∀ graph, fields.lookup "graph" = some graph → ∃ origin inner, graph = .table origin inner ∧
    (∀ f ∈ inner, lowered f.1 = f.1) ∧
    ∀ (field : LayoutField) v, inner.lookup field.name = some v → v.text?.isSome = true

/-- **A plain override**: it puts a single value into the table, or leads somewhere else. -/
inductive PlainOverride : Key × Setting → Prop
  | toField {outer inner : String} {v : Setting} (field : LayoutField) : lowered outer = "graph" →
      lowered inner = field.name → v.text?.isSome = true →
      PlainOverride ([.field outer, .field inner], v)
  | elsewhere {name : String} {rest : Key} {v : Setting} : lowered name ≠ "graph" →
      PlainOverride (.field name :: rest, v)

/-- **A plain layer** is a file that is there, can be read and is plain, or a value for a key of names with
    dots between them: a single value for a field of the layout, or any value for a key that leads
    somewhere else than into the table. -/
def Layer.Plain (files : Files) : Layer → Prop
  | file path => ∃ fields, settingsFields files path = .ok fields ∧ PlainFields fields
  | override key v => ∃ name names, IsDotted key (name :: names) ∧
      ((∃ field : LayoutField, lowered key = field.key ∧ v.text?.isSome = true) ∨ lowered name ≠ "graph")

/-! ## The invariant -/

namespace Setting

/-- **A table describes a layout**: it has the text of each field. -/
def Describes (graph : Setting) (layout : Layout) : Prop :=
  (∃ origin fields, graph = .table origin fields) ∧
    ∀ field : LayoutField, ∃ v, graph.lookup field.name = some v ∧ v.text? = some (layout.get field)

/-- **Settings tell a layout**: a table that describes it stands under `graph`. -/
def Tells (s : Setting) (layout : Layout) : Prop :=
  ∃ graph, s.lookup "graph" = some graph ∧ graph.Describes layout

variable {s graph v : Setting} {layout : Layout} {fields : List (String × Setting)}

/-- The defaults tell the standard layout. -/
theorem tells_defaultSettings : defaultSettings.Tells .standard := by
  refine ⟨_, rfl, ⟨_, _, rfl⟩, fun field => ?_⟩
  cases field <;> exact ⟨_, rfl, rfl⟩

/-- What is told is what is read. -/
theorem Tells.layout_eq (h : s.Tells layout) : s.layout = .ok layout := by
  obtain ⟨graph, hgraph, ⟨origin, fields, rfl⟩, hfields⟩ := h
  have htext (field : LayoutField) : fieldText? fields field.name = .ok (some (layout.get field)) := by
    obtain ⟨v, hv, htext⟩ := hfields field
    have hlookup : fields.lookup field.name = some v := hv
    simp only [fieldText?, hlookup, textAt, htext, Except.map]
  have hrankdir := htext .rankdir
  have hsize := htext .size
  have hinitial := htext .initialNode
  simp only [LayoutField.name] at hrankdir hsize hinitial
  unfold Setting.layout
  simp only [hgraph, layoutOfFields, hrankdir, hsize, hinitial]
  rfl

/-! ## Changing the table -/

/-- A single value has a text. -/
theorem text?_eq_getD (h : v.text?.isSome = true) (old : String) : v.text? = some (v.text?.getD old) := by
  obtain ⟨text, htext⟩ := Option.isSome_iff_exists.mp h
  rw [htext, Option.getD_some]

/-- What a table says of its own about a field. -/
def ownText (fields : List (String × Setting)) (field : LayoutField) : Option String :=
  (fields.lookup field.name).bind text?

/-- **A table laid over a table that describes a layout**: what it says about a field counts. -/
theorem Describes.assignAll (h : graph.Describes layout) (hkeys : (fields.map Prod.fst).Nodup)
    (hsmall : ∀ f ∈ fields, lowered f.1 = f.1)
    (htexts : ∀ (field : LayoutField) v, fields.lookup field.name = some v → v.text?.isSome = true) :
    (Setting.assignAll fields graph).Describes (layout.updated (ownText fields)) := by
  refine ⟨exists_table_assignAll h.1 fields, fun field => ?_⟩
  rw [lookup_assignAll hkeys hsmall, Layout.get_updated, ownText]
  cases hv : fields.lookup field.name with
  | none => exact h.2 field
  | some v =>
      have hsome := htexts field v hv
      exact ⟨v, congrArg some (overlaid_of_text hsome _), text?_eq_getD hsome _⟩

/-- **One field set** in a table that describes a layout. -/
theorem Describes.assign {name : String} (h : graph.Describes layout) {field : LayoutField}
    (hname : lowered name = field.name) (hv : v.text?.isSome = true) :
    (Setting.assign name v graph).Describes
      (layout.updated fun other => if other = field then v.text? else none) := by
  refine ⟨exists_table_assign name v graph, fun other => ?_⟩
  rw [lookup_assign, hname, Layout.get_updated]
  by_cases hother : other = field
  · subst hother
    rw [if_pos rfl, if_pos rfl, overlaid_of_text hv]
    exact ⟨v, rfl, text?_eq_getD hv _⟩
  · have hne : other.name ≠ field.name := fun heq => hother (LayoutField.name_injective heq)
    rw [if_neg hne, if_neg hother]
    exact h.2 other

/-! ## A file -/

/-- In a plain file, names at the top are put as they stand. -/
theorem putFields_eq_assignAll (h : ∀ f ∈ fields, IsPlainName f.1) (s : Setting) :
    s.putFields fields = Setting.assignAll fields s := by
  induction fields generalizing s with
  | nil => rfl
  | cons f fields ih =>
      obtain ⟨hname, hrest⟩ := List.forall_mem_cons.mp h
      have hput : put f.2 (topKey f.1) s = Setting.assign f.1 f.2 s := by
        rw [topKey_of_isPlainName hname]
        rfl
      unfold Setting.assignAll
      rw [← ih hrest, ← hput]
      rfl

/-- **A plain file** leaves a layout told, and of its fields it changes those that it says something about. -/
theorem Tells.putFields (h : s.Tells layout) (hplain : PlainFields fields)
    (hkeys : (fields.map Prod.fst).Nodup)
    (hinner : ∀ name origin inner, (name, table origin inner) ∈ fields → (inner.map Prod.fst).Nodup) :
    (s.putFields fields).Tells (layout.updated (textIn · fields)) := by
  obtain ⟨graph, hgraph, hdescribes⟩ := h
  have hlookup := lookup_assignAll hkeys (fun f hf => (hplain.isPlainName f hf).lowered_eq) s "graph"
  rw [putFields_eq_assignAll hplain.isPlainName]
  cases hsaid : fields.lookup "graph" with
  | none =>
      have hnone : ∀ field, textIn field fields = none := fun field => by rw [textIn, hsaid]; rfl
      rw [hsaid, hgraph] at hlookup
      rw [Layout.updated_of_none hnone]
      exact ⟨graph, hlookup, hdescribes⟩
  | some said =>
      obtain ⟨origin, inner, rfl, hsmall, htexts⟩ := hplain.graph said hsaid
      -- No key comes twice in the table, so it is laid over the old one field by field.
      obtain ⟨before, after, hfields, -⟩ := List.lookup_eq_some_iff.mp hsaid
      have hmem : ("graph", table origin inner) ∈ fields := by
        rw [hfields]
        exact List.mem_append_cons_self
      have htold : (textIn · fields) = ownText inner := by
        funext field
        rw [textIn, hsaid]
        rfl
      rw [hsaid, hgraph] at hlookup
      rw [htold]
      exact ⟨_, hlookup, hdescribes.assignAll (hinner _ _ _ hmem) hsmall htexts⟩

/-! ## An override -/

/-- **A plain override** leaves a layout told, and of its fields it changes at most the one that its key
    leads to. -/
theorem Tells.put {o : Key × Setting} (h : s.Tells layout) (ho : PlainOverride o) :
    (s.putOverrides [o]).Tells (layout.updated (keyText · o)) := by
  obtain ⟨graph, hgraph, hdescribes⟩ := h
  cases ho with
  | @toField outer inner v field houter hinner hv =>
      have hlookup : (s.putOverrides [([.field outer, .field inner], v)]).lookup "graph" =
          some (Setting.assign inner v graph) := by
        show (s.onField outer (Setting.assign inner v)).lookup "graph" = _
        rw [lookup_onField, houter, if_pos rfl, hgraph, Option.getD_some]
      simp only [keyText_of_eq houter hinner]
      exact ⟨_, hlookup, hdescribes.assign hinner hv⟩
  | @elsewhere name rest v hname =>
      rw [Layout.updated_of_none fun field => keyText_of_ne hname field rest v]
      exact ⟨graph, (lookup_put_of_ne hname.symm v rest s).trans hgraph, hdescribes⟩

/-! ## Many files, many overrides -/

/-- **Plain files** can all be had. They leave a layout told, and each of its fields is what the last file
    says that says something about it. -/
theorem Tells.putFiles {files : Files} (h : s.Tells layout) {paths : List String}
    (hplain : ∀ path ∈ paths, (Layer.file path).Plain files) :
    ∃ s', s.putFiles files paths = .ok s' ∧
      s'.Tells (layout.updated fun field => (paths.filterMap (fileText files field)).getLast?) := by
  induction paths generalizing s layout with
  | nil => exact ⟨s, rfl, h⟩
  | cons path paths ih =>
      obtain ⟨⟨fields, hfields, hpath⟩, hrest⟩ := List.forall_mem_cons.mp hplain
      obtain ⟨hkeys, hinner⟩ := settingsFields_distinct hfields
      obtain ⟨s', hs', htells⟩ := ih (h.putFields hpath hkeys hinner) hrest
      refine ⟨s', ?_, ?_⟩
      · simp only [Setting.putFiles, hfields, hs']
      · rw [Layout.updated_updated] at htells
        simpa only [getLast?_filterMap_cons, fileText_eq hfields] using htells

/-- **Plain overrides** leave a layout told, and each of its fields is what the last of them says that says
    something about it. -/
theorem Tells.putOverrides {overrides : List (Key × Setting)} (h : s.Tells layout)
    (hplain : ∀ o ∈ overrides, PlainOverride o) :
    (s.putOverrides overrides).Tells
      (layout.updated fun field => (overrides.filterMap (keyText field)).getLast?) := by
  induction overrides generalizing s layout with
  | nil => exact h
  | cons o overrides ih =>
      obtain ⟨ho, hrest⟩ := List.forall_mem_cons.mp hplain
      have htells := ih (h.put ho) hrest
      rw [Layout.updated_updated] at htells
      simp only [getLast?_filterMap_cons]
      exact htells

end Setting

/-! ## Adding layers -/

variable {files : Files} {key : String} {k : Key} {v : Setting} {field : LayoutField}
  {layers : Layers} {steps : List Layer}

theorem isDotted_key (field : LayoutField) : IsDotted field.key ["graph", field.name] where
  ne_nil := List.cons_ne_nil _ _
  isName := by cases field <;> decide
  eq_intercalate := by cases field <;> rfl

/-- A key of names with dots between them is a field's key if these are its names, whatever their
    capitals. -/
theorem lowered_eq_key_iff {names : List String} (h : IsDotted key names) :
    lowered key = field.key ↔ names.map lowered = ["graph", field.name] := by
  constructor
  · intro heq
    have hlowered := h.lowered
    rw [heq] at hlowered
    exact hlowered.unique (isDotted_key field)
  · intro heq
    rw [h.lowered.eq_intercalate, heq]
    exact (isDotted_key field).eq_intercalate.symm

/-- An override says the same by its key and by the names in it. -/
theorem keyText_eq_overrideText {names : List String} (h : IsDotted key names) :
    keyText field (names.map .field, v) = (Layer.override key v).overrideText field := by
  simp only [Layer.overrideText, lowered_eq_key_iff h]
  match names with
  | [] => rfl
  | [outer] => simp [keyText]
  | [outer, inner] => simp [keyText]
  | _ :: _ :: _ :: _ => simp [keyText]

/-- A plain override is one by the key that is read. -/
theorem Layer.Plain.override (h : (Layer.override key v).Plain files) :
    ∃ k, Key.ofString? key = some k ∧ PlainOverride (k, v) ∧
      ∀ field, keyText field (k, v) = (Layer.override key v).overrideText field := by
  obtain ⟨name, names, hdotted, hwhere⟩ := h
  refine ⟨_, ofString?_of_isDotted hdotted, ?_, fun field => keyText_eq_overrideText hdotted⟩
  obtain ⟨field, hkey, hv⟩ | hname := hwhere
  · rw [lowered_eq_key_iff hdotted, List.map_cons] at hkey
    obtain ⟨houter, hrest⟩ := List.cons.inj hkey
    obtain ⟨inner, rfl, hinner⟩ := List.map_eq_singleton_iff.mp hrest
    exact .toField field houter hinner hv
  · exact .elsewhere hname

/-- Where a plain override says nothing about a field, no override for the same key does. -/
theorem PlainOverride.keyText_eq_none (h : PlainOverride (k, v)) (hnone : keyText field (k, v) = none)
    (w : Setting) : keyText field (k, w) = none := by
  cases h with
  | @toField outer inner _ target houter hinner hv =>
      rw [keyText_of_eq houter hinner] at hnone ⊢
      by_cases hfield : field = target
      · rw [if_pos hfield] at hnone
        rw [hnone] at hv
        cases hv
      · exact if_neg hfield
  | elsewhere hname => exact keyText_of_ne hname field _ w

/-- **What becomes of layers as they are added**: the files come in order, and the last of the overrides
    that are kept for a field is the last of all for it. -/
structure Layers.Records (layers : Layers) (steps : List Layer) : Prop where
  files_eq : layers.files = steps.filterMap Layer.path?
  plain : ∀ o ∈ layers.overrides, PlainOverride o
  text_eq : ∀ field, (layers.overrides.filterMap (keyText field)).getLast? =
    (steps.filterMap (Layer.overrideText field)).getLast?

/-- One more override: what was kept for the same key is forgotten, which changes nothing. -/
theorem Layers.Records.override (h : layers.Records steps) (hk : PlainOverride (k, v))
    (hkey : ∀ field, keyText field (k, v) = (Layer.override key v).overrideText field) :
    Layers.Records { layers with overrides := layers.overrides.filter (·.1 ≠ k) ++ [(k, v)] }
      (steps ++ [.override key v]) where
  files_eq := by simp [h.files_eq, Layer.path?]
  plain := by
    intro o ho
    rcases List.mem_append.mp ho with ho | ho
    · exact h.plain o (List.mem_of_mem_filter ho)
    · rw [List.mem_singleton.mp ho]
      exact hk
  text_eq := by
    intro field
    rw [getLast?_filterMap_concat, getLast?_filterMap_concat, ← hkey, ← h.text_eq]
    cases hnone : keyText field (k, v) with
    | some text => rfl
    | none =>
        -- What the filter takes away says nothing about the field either.
        have hkept : (layers.overrides.filter (·.1 ≠ k)).filterMap (keyText field) =
            layers.overrides.filterMap (keyText field) := by
          rw [List.filterMap_filter]
          apply List.filterMap_congr
          rintro ⟨other, w⟩ -
          by_cases hother : other = k
          · subst hother
            simp [hk.keyText_eq_none hnone]
          · simp [hother]
        rw [hkept]

/-- **Adding a plain layer** succeeds. -/
theorem Layers.Records.add (h : layers.Records steps) {step : Layer} (hstep : step.Plain files) :
    ∃ layers', layers.add step = .ok layers' ∧ layers'.Records (steps ++ [step]) := by
  cases step with
  | file path =>
      refine ⟨layers.withFile path, rfl, ?_, h.plain, fun field => ?_⟩
      · rw [Layers.withFile, h.files_eq, List.filterMap_append]
        rfl
      · rw [getLast?_filterMap_concat]
        exact h.text_eq field
  | override key v =>
      obtain ⟨k, hk, hplain, hkey⟩ := hstep.override
      refine ⟨_, ?_, h.override hplain hkey⟩
      simp only [Layers.add, Layers.withOverride, hk]

/-- So does adding many. -/
theorem Layers.Records.addAll {done : List Layer} (h : layers.Records done)
    (hsteps : ∀ step ∈ steps, step.Plain files) :
    ∃ layers', layers.addAll steps = .ok layers' ∧ layers'.Records (done ++ steps) := by
  induction steps generalizing layers done with
  | nil => exact ⟨layers, rfl, by rwa [List.append_nil]⟩
  | cons step steps ih =>
      obtain ⟨hstep, hrest⟩ := List.forall_mem_cons.mp hsteps
      obtain ⟨next, hnext, hrecords⟩ := h.add hstep
      obtain ⟨layers', hlayers', hall⟩ := ih hrecords hrest
      refine ⟨layers', ?_, ?_⟩
      · simp only [Layers.addAll, hnext, hlayers']
      · rwa [List.append_assoc, List.singleton_append] at hall

/-! ## The layout of all layers -/

/-- What layers say about a field: what the last override says that says something about it, and if none
    does, what the last file says. -/
def saidLast (files : Files) (steps : List Layer) (field : LayoutField) : Option String :=
  (steps.filterMap (Layer.overrideText field)).getLast?.or
    (steps.filterMap (Layer.fileText files field)).getLast?

/-- The files of plain layers are plain. -/
theorem plain_of_mem_paths (h : ∀ step ∈ steps, step.Plain files) {path : String}
    (hpath : path ∈ steps.filterMap Layer.path?) : (Layer.file path).Plain files := by
  obtain ⟨step, hstep, heq⟩ := List.mem_filterMap.mp hpath
  cases step with
  | file other =>
      obtain rfl := Option.some.inj heq
      exact h _ hstep
  | override key v => cases heq

/-- Layers that were recorded tell the layout that was said last. -/
theorem Layers.Records.layout (h : layers.Records steps) (hplain : ∀ step ∈ steps, step.Plain files) :
    layers.layout files = .ok (Layout.standard.updated (saidLast files steps)) := by
  have hpaths : ∀ path ∈ layers.files, (Layer.file path).Plain files := by
    rw [h.files_eq]
    exact fun path => plain_of_mem_paths hplain
  obtain ⟨s, hs, htells⟩ := Setting.tells_defaultSettings.putFiles hpaths
  have hall := htells.putOverrides h.plain
  have hsaid : (fun field => (layers.overrides.filterMap (keyText field)).getLast?.or
      (layers.files.filterMap (fileText files field)).getLast?) = saidLast files steps := by
    funext field
    rw [h.text_eq, h.files_eq, List.filterMap_filterMap]
    rfl
  rw [Layout.updated_updated, hsaid] at hall
  simp only [Layers.layout, Layers.settings, hs, Except.map, hall.layout_eq]

end StateDiagram

import StateDiagram.Settings.Layers
import Mathlib.Data.List.Nodup

/-!
# `Proofs.DistinctKeys` — no key twice

A settings file that says something twice is refused, wherever in the file both places are and however
deep the table is. So in the tables of a file each key stands once, and looking a key up finds all that the
file says about it.

The reason is in the draft: whatever is added to it, a header or a key with its value, comes under a key
that was not there, or into a table that was.

## Contents

* `Toml.Distinct`, `Draft.Distinct` — no table in a value, or in a draft, has a key twice;
* `Draft.Distinct.descend` — changing a table somewhere in a draft;
* `Draft.Distinct.insert`, `openTable`, `openElement` — the three ways to add to a draft;
* `Draft.Distinct.finish`, `resolveDates_distinct` — what becomes of a draft;
* `value_distinct`, `lines_distinct`, `ofText?_distinct` — reading;
* `settingsFields_distinct` — the fields of a settings file.
-/

namespace StateDiagram

namespace Toml

/-! ## Values -/

/-- A value without parts. -/
def IsSingle : Toml → Prop
  | arr _ | table _ => False
  | _ => True

/-- **No table in a value has a key twice.** -/
inductive Distinct : Toml → Prop
  | single {v : Toml} : v.IsSingle → Distinct v
  | arr {items : List Toml} : (∀ v ∈ items, Distinct v) → Distinct (.arr items)
  | table {fields : Fields} :
      (fields.map Prod.fst).Nodup → (∀ f ∈ fields, Distinct f.2) → Distinct (.table fields)

/-- The fields of a table have distinct keys, and so have the tables in them. -/
theorem Distinct.of_table {fields : Fields} (h : Distinct (.table fields)) :
    (fields.map Prod.fst).Nodup ∧ ∀ f ∈ fields, f.2.Distinct := by
  cases h with
  | single hsingle => cases hsingle
  | table hkeys hvalues => exact ⟨hkeys, hvalues⟩

/-! ## Drafts -/

/-- **No table in a draft has a key twice.** -/
inductive Draft.Distinct : Draft → Prop
  | value {v : Toml} : v.Distinct → Distinct (.value v)
  | table {origin : TableOrigin} {entries : Entries} :
      (entries.map Prod.fst).Nodup → (∀ e ∈ entries, Distinct e.2) → Distinct (.table origin entries)
  | tables {latest : Draft} {earlier : List Draft} :
      Distinct latest → (∀ d ∈ earlier, Distinct d) → Distinct (.tables latest earlier)

namespace Draft

variable {origin origin' : TableOrigin} {entries : Entries} {key : String} {d draft result : Draft}

theorem distinct_empty : Draft.empty.Distinct :=
  .table List.nodup_nil (List.forall_mem_nil _)

/-- The entries of a table have distinct keys, and so have the tables in them. -/
theorem Distinct.of_table (h : Distinct (.table origin entries)) :
    (entries.map Prod.fst).Nodup ∧ ∀ e ∈ entries, e.2.Distinct := by
  cases h with
  | table hkeys hentries => exact ⟨hkeys, hentries⟩

/-- What is found in a table has distinct keys. -/
theorem Distinct.of_lookup (h : Distinct (.table origin entries)) (hd : entries.lookup key = some d) :
    d.Distinct := by
  obtain ⟨before, after, rfl, -⟩ := List.lookup_eq_some_iff.mp hd
  exact h.of_table.2 (key, d) (by simp)

/-- A key that is not found is not there. -/
theorem not_mem_of_lookup (h : entries.lookup key = none) : key ∉ entries.map Prod.fst := by
  intro hmem
  obtain ⟨e, he, rfl⟩ := List.mem_map.mp hmem
  have hne := List.lookup_eq_none_iff.mp h e he
  simp at hne

/-- One more entry, under a key that is not there. -/
theorem Distinct.concat (h : Distinct (.table origin entries)) (hkey : key ∉ entries.map Prod.fst)
    (hd : d.Distinct) : Distinct (.table origin' (entries ++ [(key, d)])) := by
  obtain ⟨hkeys, hentries⟩ := h.of_table
  refine .table ?_ fun e he => ?_
  · rw [List.map_append, List.map_singleton, ← List.concat_eq_append]
    exact List.Nodup.concat hkey hkeys
  · rcases List.mem_append.mp he with he | he
    · exact hentries e he
    · rw [List.mem_singleton.mp he]
      exact hd

/-- Something else under a key that is there. -/
theorem Distinct.setEntry (h : Distinct (.table origin entries)) (hd : d.Distinct) :
    Distinct (.table origin' (setEntry entries key d)) := by
  obtain ⟨hkeys, hentries⟩ := h.of_table
  have hsame : (Toml.setEntry entries key d).map Prod.fst = entries.map Prod.fst := by
    rw [Toml.setEntry, List.map_map]
    apply List.map_congr_left
    intro e _
    by_cases he : e.1 = key <;> simp [he]
  refine .table (hsame ▸ hkeys) fun e he => ?_
  obtain ⟨old, hold, rfl⟩ := List.mem_map.mp he
  by_cases hkey : old.1 = key
  · rw [if_pos hkey]
    exact hd
  · rw [if_neg hkey]
    exact hentries old hold

/-- **Changing a table somewhere in a draft** keeps keys distinct if the change does. -/
theorem Distinct.descend {dotted : Bool} {f : TableOrigin → Entries → Option Draft}
    (hf : ∀ origin entries result, Distinct (.table origin entries) →
      f origin entries = some result → result.Distinct)
    {path : List String} (h : draft.Distinct) (hresult : draft.descend dotted f path = some result) :
    result.Distinct := by
  induction path generalizing draft result with
  | nil =>
      cases h with
      | table hkeys hentries => exact hf _ _ _ (.table hkeys hentries) hresult
      | value => cases hresult
      | tables => cases hresult
  | cons key path ih =>
      cases h with
      | value => cases hresult
      | tables => cases hresult
      | @table origin entries hkeys hentries =>
          have h : Distinct (.table origin entries) := .table hkeys hentries
          rw [Draft.descend] at hresult
          split at hresult
          next hnone =>
            obtain ⟨d, hd, rfl⟩ := Option.map_eq_some_iff.mp hresult
            have hnew : Distinct (.table (if dotted then .dotted else .implied) []) :=
              .table List.nodup_nil (List.forall_mem_nil _)
            exact h.concat (not_mem_of_lookup hnone) (ih hnew hd)
          next => cases hresult
          next latest earlier hfound =>
            obtain ⟨d, hd, rfl⟩ := Option.map_eq_some_iff.mp hresult
            cases h.of_lookup hfound with
            | tables hlatest hearlier => exact h.setEntry (.tables (ih hlatest hd) hearlier)
          next inner found hfound =>
            split at hresult
            next => cases hresult
            next =>
              obtain ⟨d, hd, rfl⟩ := Option.map_eq_some_iff.mp hresult
              exact h.setEntry (ih (h.of_lookup hfound) hd)

/-- The value of a key comes under a key that is not there. -/
theorem Distinct.insert {header path : List String} {v : Toml} (h : draft.Distinct) (hv : v.Distinct)
    (hresult : draft.insert header path key v = some result) : result.Distinct := by
  refine h.descend (fun origin entries result htable hinner => ?_) hresult
  refine htable.descend (fun origin entries result htable hlast => ?_) hinner
  split at hlast
  next => cases hlast
  next hfree =>
    obtain rfl := Option.some.inj hlast
    rw [Bool.or_eq_true, not_or, Option.not_isSome_iff_eq_none] at hfree
    exact htable.concat (not_mem_of_lookup hfree.2) (.value hv)

/-- A header opens a table that is not there, or one that was only implied. -/
theorem Distinct.openTable {path : List String} (h : draft.Distinct)
    (hresult : draft.openTable path key = some result) : result.Distinct := by
  refine h.descend (fun origin entries result htable hlast => ?_) hresult
  split at hlast
  next hnone =>
    obtain rfl := Option.some.inj hlast
    exact htable.concat (not_mem_of_lookup hnone) distinct_empty
  next found hfound =>
    obtain rfl := Option.some.inj hlast
    obtain ⟨hkeys, hentries⟩ := htable.of_table
    obtain ⟨hinner, hbelow⟩ := (htable.of_lookup hfound).of_table
    -- The table moves to the end, so what is before it is without its key.
    have hrest : Distinct (.table origin (entries.filter (·.1 ≠ key))) :=
      .table (hkeys.sublist (List.filter_sublist.map Prod.fst))
        fun e he => hentries e (List.mem_of_mem_filter he)
    refine hrest.concat (fun hmem => ?_) (.table hinner hbelow)
    obtain ⟨e, he, hkey⟩ := List.mem_map.mp hmem
    exact of_decide_eq_true (List.mem_filter.mp he).2 hkey
  next => cases hlast

/-- A header of one more table in a list of tables. -/
theorem Distinct.openElement {path : List String} (h : draft.Distinct)
    (hresult : draft.openElement path key = some result) : result.Distinct := by
  refine h.descend (fun origin entries result htable hlast => ?_) hresult
  split at hlast
  next hnone =>
    obtain rfl := Option.some.inj hlast
    exact htable.concat (not_mem_of_lookup hnone) (.tables distinct_empty (List.forall_mem_nil _))
  next latest earlier hfound =>
    obtain rfl := Option.some.inj hlast
    cases htable.of_lookup hfound with
    | tables hlatest hearlier =>
        exact htable.setEntry
          (.tables distinct_empty (List.forall_mem_cons.mpr ⟨hlatest, hearlier⟩))
  next => cases hlast

/-! ## Finished drafts -/

theorem finishEntries_eq_map (entries : Entries) :
    finishEntries entries = entries.map fun e => (e.1, e.2.finish) := by
  induction entries with
  | nil => rfl
  | cons e entries ih => rw [finishEntries, ih, List.map_cons]

theorem finishList_eq (ds : List Draft) (after : List Toml) :
    finishList ds after = (ds.map finish).reverse ++ after := by
  induction ds generalizing after with
  | nil => rfl
  | cons d ds ih => simp [finishList, ih]

/-- A finished draft has distinct keys. -/
theorem Distinct.finish (h : draft.Distinct) : draft.finish.Distinct := by
  induction h with
  | value hv => exact hv
  | @table origin entries hkeys _ ih =>
      rw [Draft.finish, finishEntries_eq_map]
      refine .table ?_ fun f hf => ?_
      · rw [List.map_map]
        exact hkeys
      · obtain ⟨e, he, rfl⟩ := List.mem_map.mp hf
        exact ih e he
  | @tables latest earlier _ _ ihlatest ihearlier =>
      rw [Draft.finish, finishList_eq]
      refine .arr fun v hv => ?_
      rcases List.mem_append.mp hv with hv | hv
      · obtain ⟨d, hd, rfl⟩ := List.mem_map.mp (List.mem_reverse.mp hv)
        exact ihearlier d hd
      · rw [List.mem_singleton.mp hv]
        exact ihlatest

end Draft

/-! ## Dates -/

variable {v w : Toml} {rest : List Char}

/-- The items of a list with their dates come from its items, one from each. -/
theorem exists_of_mem_resolveItems {items items' : List Toml} (h : resolveItems items = some items')
    (hw : w ∈ items') : ∃ v ∈ items, resolveDates v = some w := by
  induction items generalizing items' with
  | nil =>
      obtain rfl := Option.some.inj h
      cases hw
  | cons v items ih =>
      simp only [resolveItems, Option.bind_eq_bind, Option.bind_eq_some_iff, Option.pure_def,
        Option.some.injEq] at h
      obtain ⟨v', hv', rest, hrest, rfl⟩ := h
      rcases List.mem_cons.mp hw with rfl | hw
      · exact ⟨v, List.mem_cons_self, hv'⟩
      · obtain ⟨u, hu, hresolve⟩ := ih hrest hw
        exact ⟨u, List.mem_cons_of_mem _ hu, hresolve⟩

/-- The fields of a table with their dates have the same keys, and come from its fields. -/
theorem resolveFields_keys {fields fields' : Fields} (h : resolveFields fields = some fields') :
    fields'.map Prod.fst = fields.map Prod.fst ∧
      ∀ f' ∈ fields', ∃ f ∈ fields, resolveDates f.2 = some f'.2 := by
  induction fields generalizing fields' with
  | nil =>
      obtain rfl := Option.some.inj h
      exact ⟨rfl, List.forall_mem_nil _⟩
  | cons f fields ih =>
      obtain ⟨key, v⟩ := f
      simp only [resolveFields, Option.bind_eq_bind, Option.bind_eq_some_iff, Option.pure_def,
        Option.some.injEq] at h
      obtain ⟨v', hv', rest, hrest, rfl⟩ := h
      obtain ⟨hkeys, hvalues⟩ := ih hrest
      refine ⟨by rw [List.map_cons, List.map_cons, hkeys], fun f' hf' => ?_⟩
      rcases List.mem_cons.mp hf' with rfl | hf'
      · exact ⟨(key, v), List.mem_cons_self, hv'⟩
      · obtain ⟨f, hf, hresolve⟩ := hvalues f' hf'
        exact ⟨f, List.mem_cons_of_mem _ hf, hresolve⟩

/-- A value with its dates has distinct keys. -/
theorem resolveDates_distinct (h : v.Distinct) (hw : resolveDates v = some w) : w.Distinct := by
  induction h generalizing w with
  | @single v hsingle =>
      cases v with
      | arr | table => cases hsingle
      | _ =>
          obtain rfl := Option.some.inj hw
          exact .single hsingle
  | @arr items _ ih =>
      rw [resolveDates] at hw
      obtain ⟨items', hitems, rfl⟩ := Option.map_eq_some_iff.mp hw
      refine .arr fun w hw => ?_
      obtain ⟨v, hv, hresolve⟩ := exists_of_mem_resolveItems hitems hw
      exact ih v hv hresolve
  | @table fields hkeys _ ih =>
      rw [resolveDates] at hw
      split at hw
      next =>
        obtain ⟨m, -, rfl⟩ := Option.map_eq_some_iff.mp hw
        exact .single trivial
      next =>
        obtain ⟨fields', hfields, rfl⟩ := Option.map_eq_some_iff.mp hw
        obtain ⟨hsame, hvalues⟩ := resolveFields_keys hfields
        refine .table (hsame ▸ hkeys) fun f' hf' => ?_
        obtain ⟨f, hf, hresolve⟩ := hvalues f' hf'
        exact ih f hf hresolve

/-! ## Reading -/

namespace Read

variable {cs : List Char}

/-! ### Values without parts -/

/-- What is read with a rest is single if it is single without. -/
theorem isSingle_of_map {found : Option Toml} {after : List Char}
    (h : found.map (·, after) = some (v, rest)) (hfound : ∀ w, found = some w → w.IsSingle) :
    v.IsSingle := by
  obtain ⟨w, hw, hpair⟩ := Option.map_eq_some_iff.mp h
  obtain ⟨rfl, -⟩ := Prod.mk.inj hpair
  exact hfound w hw

theorem boundedInt_isSingle {n : Int} (h : boundedInt n = some v) : v.IsSingle := by
  unfold boundedInt at h
  split at h
  next =>
    obtain rfl := Option.some.inj h
    trivial
  next => cases h

theorem boundedFloat_isSingle {negative : Bool} {ds : List Char} {e : Int}
    (h : boundedFloat negative ds e = some v) : v.IsSingle := by
  unfold boundedFloat at h
  split at h
  next => cases h
  next =>
    obtain rfl := Option.some.inj h
    trivial

theorem decimalTail_isSingle {negative : Bool} {whole : List Char}
    (h : decimalTail negative whole cs = some (v, rest)) : v.IsSingle := by
  unfold decimalTail at h
  split at h
  next =>
    obtain ⟨⟨frac, after⟩, _, h⟩ := Option.bind_eq_some_iff.mp h
    dsimp only at h
    split at h
    all_goals
      obtain ⟨e, _, h⟩ := Option.bind_eq_some_iff.mp h
      exact isSingle_of_map h fun _ => boundedFloat_isSingle
  next =>
    obtain ⟨e, _, h⟩ := Option.bind_eq_some_iff.mp h
    exact isSingle_of_map h fun _ => boundedFloat_isSingle
  next =>
    obtain ⟨e, _, h⟩ := Option.bind_eq_some_iff.mp h
    exact isSingle_of_map h fun _ => boundedFloat_isSingle
  next => exact isSingle_of_map h fun _ => boundedInt_isSingle

theorem unsigned_isSingle {negative : Bool} (h : unsigned negative cs = some (v, rest)) :
    v.IsSingle := by
  unfold unsigned at h
  split at h
  next => exact (Prod.mk.inj (Option.some.inj h)).1 ▸ trivial
  next => exact (Prod.mk.inj (Option.some.inj h)).1 ▸ trivial
  next =>
    obtain ⟨found, _, h⟩ := Option.bind_eq_some_iff.mp h
    exact decimalTail_isSingle h

theorem based_isSingle {base : Nat} (h : based base cs = some (v, rest)) : v.IsSingle := by
  obtain ⟨found, _, h⟩ := Option.bind_eq_some_iff.mp h
  exact isSingle_of_map h fun _ => boundedInt_isSingle

theorem number_isSingle (h : number cs = some (v, rest)) : v.IsSingle := by
  unfold number at h
  split at h
  next => exact based_isSingle h
  next => exact based_isSingle h
  next => exact based_isSingle h
  next => exact unsigned_isSingle h

theorem keyword_isSingle (h : keyword cs = some (v, rest)) : v.IsSingle := by
  unfold keyword at h
  split at h
  next => exact (Prod.mk.inj (Option.some.inj h)).1 ▸ trivial
  next => exact (Prod.mk.inj (Option.some.inj h)).1 ▸ trivial
  next => cases h

/-- Texts, truth values, dates and numbers have no parts. -/
theorem scalar_isSingle (h : scalar cs = some (v, rest)) : v.IsSingle := by
  have htext {found : String × List Char} (h : (Toml.str found.1, found.2) = (v, rest)) :
      v.IsSingle := (Prod.mk.inj h).1 ▸ trivial
  unfold scalar at h
  split at h
  next =>
    obtain ⟨found, _, hpair⟩ := Option.map_eq_some_iff.mp h
    exact htext hpair
  next =>
    obtain ⟨found, _, hpair⟩ := Option.map_eq_some_iff.mp h
    exact htext hpair
  next =>
    split at h
    next found hfound =>
      rw [h] at hfound
      exact keyword_isSingle hfound
    next => exact (Prod.mk.inj (Option.some.inj h)).1 ▸ trivial
    next => exact number_isSingle h

/-! ### Lists and inline tables -/

/-- **Values that are read have distinct keys**, whatever the fuel and the depth. -/
theorem value_distinct (fuel : Nat) :
    (∀ depth cs v rest, value fuel depth cs = some (v, rest) → v.Distinct) ∧
    (∀ depth taken cs v rest, (∀ w ∈ taken, w.Distinct) →
      items fuel depth taken cs = some (v, rest) → v.Distinct) ∧
    (∀ depth draft cs v rest, draft.Distinct →
      pairs fuel depth draft cs = some (v, rest) → v.Distinct) := by
  induction fuel with
  | zero =>
      refine ⟨?_, ?_, ?_⟩
      · intro depth cs v rest h
        cases h
      · intro depth taken cs v rest _ h
        cases h
      · intro depth draft cs v rest _ h
        cases h
  | succ fuel ih =>
      obtain ⟨ihvalue, ihitems, ihpairs⟩ := ih
      refine ⟨?_, ?_, ?_⟩
      · intro depth cs v rest h
        unfold value at h
        split at h
        next => cases h
        next => cases h
        next => cases h
        next heq =>
          obtain rfl := Nat.succ.inj heq
          exact ihitems _ _ _ _ _ (List.forall_mem_nil _) h
        next heq =>
          obtain rfl := Nat.succ.inj heq
          split at h
          next =>
            obtain ⟨rfl, -⟩ := Prod.mk.inj (Option.some.inj h)
            exact .table List.nodup_nil (List.forall_mem_nil _)
          next => exact ihpairs _ _ _ _ _ Draft.distinct_empty h
        next => exact .single (scalar_isSingle h)
      · intro depth taken cs v rest htaken h
        unfold items at h
        split at h
        next =>
          obtain ⟨rfl, -⟩ := Prod.mk.inj (Option.some.inj h)
          exact .arr fun w hw => htaken w (List.mem_reverse.mp hw)
        next =>
          obtain ⟨⟨w, after⟩, hw, h⟩ := Option.bind_eq_some_iff.mp h
          have htaken' : ∀ u ∈ w :: taken, u.Distinct :=
            List.forall_mem_cons.mpr ⟨ihvalue _ _ _ _ hw, htaken⟩
          dsimp only at h
          split at h
          next => exact ihitems _ _ _ _ _ htaken' h
          next =>
            obtain ⟨rfl, -⟩ := Prod.mk.inj (Option.some.inj h)
            exact .arr fun w hw => htaken' w (List.mem_reverse.mp hw)
          next => cases h
      · intro depth draft cs v rest hdraft h
        unfold pairs at h
        obtain ⟨⟨path, cs₁⟩, _, h⟩ := Option.bind_eq_some_iff.mp h
        obtain ⟨cs₂, _, h⟩ := Option.bind_eq_some_iff.mp h
        obtain ⟨⟨w, cs₃⟩, hw, h⟩ := Option.bind_eq_some_iff.mp h
        obtain ⟨last, _, h⟩ := Option.bind_eq_some_iff.mp h
        obtain ⟨draft', hinsert, h⟩ := Option.bind_eq_some_iff.mp h
        have hdraft' := hdraft.insert (ihvalue _ _ _ _ hw) hinsert
        split at h
        next => exact ihpairs _ _ _ _ _ hdraft' h
        next =>
          obtain ⟨rfl, -⟩ := Prod.mk.inj (Option.some.inj h)
          exact hdraft'.finish
        next => cases h

/-! ### Lines -/

variable {here here' : List String} {root root' : Draft}

theorem header_distinct (h : root.Distinct) (hread : header root cs = some ((here', root'), rest)) :
    root'.Distinct := by
  unfold header at hread
  split at hread
  next =>
    obtain ⟨⟨path, cs₁⟩, _, hread⟩ := Option.bind_eq_some_iff.mp hread
    obtain ⟨cs₂, _, hread⟩ := Option.bind_eq_some_iff.mp hread
    obtain ⟨cs₃, _, hread⟩ := Option.bind_eq_some_iff.mp hread
    obtain ⟨last, _, hread⟩ := Option.bind_eq_some_iff.mp hread
    obtain ⟨root'', hopen, hread⟩ := Option.bind_eq_some_iff.mp hread
    simp only [Option.some.injEq, Prod.mk.injEq] at hread
    exact hread.1.2 ▸ h.openElement hopen
  next =>
    obtain ⟨⟨path, cs₁⟩, _, hread⟩ := Option.bind_eq_some_iff.mp hread
    obtain ⟨cs₂, _, hread⟩ := Option.bind_eq_some_iff.mp hread
    obtain ⟨last, _, hread⟩ := Option.bind_eq_some_iff.mp hread
    obtain ⟨root'', hopen, hread⟩ := Option.bind_eq_some_iff.mp hread
    simp only [Option.some.injEq, Prod.mk.injEq] at hread
    exact hread.1.2 ▸ h.openTable hopen

theorem keyValue_distinct (h : root.Distinct)
    (hread : keyValue here root cs = some ((here', root'), rest)) : root'.Distinct := by
  obtain ⟨⟨path, cs₁⟩, _, hread⟩ := Option.bind_eq_some_iff.mp hread
  obtain ⟨cs₂, _, hread⟩ := Option.bind_eq_some_iff.mp hread
  obtain ⟨⟨v, cs₃⟩, hv, hread⟩ := Option.bind_eq_some_iff.mp hread
  obtain ⟨last, _, hread⟩ := Option.bind_eq_some_iff.mp hread
  obtain ⟨root'', hinsert, hread⟩ := Option.bind_eq_some_iff.mp hread
  simp only [Option.some.injEq, Prod.mk.injEq] at hread
  exact hread.1.2 ▸ h.insert ((value_distinct _).1 _ _ _ _ hv) hinsert

/-- **Every line keeps keys distinct**, so all of them do. -/
theorem lines_distinct {fuel : Nat} (h : root.Distinct) (hread : lines fuel here root cs = some root') :
    root'.Distinct := by
  induction fuel generalizing here root cs with
  | zero => cases hread
  | succ fuel ih =>
      unfold lines at hread
      split at hread
      next => exact Option.some.inj hread ▸ h
      next =>
        obtain ⟨⟨⟨here₁, root₁⟩, cs₁⟩, hheader, hread⟩ := Option.bind_eq_some_iff.mp hread
        obtain ⟨cs₂, _, hread⟩ := Option.bind_eq_some_iff.mp hread
        exact ih (header_distinct h hheader) hread
      next =>
        split at hread
        next =>
          obtain ⟨cs₁, _, hread⟩ := Option.bind_eq_some_iff.mp hread
          exact ih h hread
        next =>
          obtain ⟨⟨⟨here₁, root₁⟩, cs₁⟩, hkey, hread⟩ := Option.bind_eq_some_iff.mp hread
          obtain ⟨cs₂, _, hread⟩ := Option.bind_eq_some_iff.mp hread
          exact ih (keyValue_distinct h hkey) hread

end Read

/-- **A settings file has no key twice**, in no table. -/
theorem ofText?_distinct {text : String} {fields : Fields} (h : ofText? text = some fields) :
    (Toml.table fields).Distinct := by
  unfold ofText? at h
  dsimp only at h
  split at h
  next found hfound =>
    obtain rfl := Option.some.inj h
    obtain ⟨root, hroot, hdates⟩ := Option.bind_eq_some_iff.mp hfound
    exact resolveDates_distinct (Read.lines_distinct Draft.distinct_empty hroot).finish hdates
  next => cases h

end Toml

/-! ## Settings files -/

open Setting in
/-- The fields of a file's table have its keys. -/
theorem ofTomlFields_eq_map (origin : String) (fields : Toml.Fields) :
    ofTomlFields origin fields = fields.map fun f => (f.1, ofToml origin f.2) := by
  induction fields with
  | nil => rfl
  | cons f fields ih => rw [ofTomlFields, ih, List.map_cons]

/-- **The fields of a settings file have distinct keys**, and so have the fields of the tables among
    them. -/
theorem settingsFields_distinct {files : Files} {path : String} {fields : List (String × Setting)}
    (h : settingsFields files path = .ok fields) :
    (fields.map Prod.fst).Nodup ∧ ∀ name origin inner, (name, Setting.table origin inner) ∈ fields →
      (inner.map Prod.fst).Nodup := by
  have hkeys (origin : String) (fields : Toml.Fields) :
      (Setting.ofTomlFields origin fields).map Prod.fst = fields.map Prod.fst := by
    rw [ofTomlFields_eq_map, List.map_map]
    rfl
  unfold settingsFields at h
  split at h
  next => cases h
  next =>
    split at h
    next => cases h
    next =>
      split at h
      next => cases h
      next fields' hread =>
        obtain rfl := Except.ok.inj h
        obtain ⟨hnodup, hvalues⟩ := (Toml.ofText?_distinct hread).of_table
        refine ⟨hkeys _ _ ▸ hnodup, fun name origin inner hmem => ?_⟩
        rw [ofTomlFields_eq_map] at hmem
        obtain ⟨⟨key, v⟩, hv, hpair⟩ := List.mem_map.mp hmem
        have htable := (Prod.mk.inj hpair).2
        cases v with
        | table entries =>
            obtain ⟨-, rfl⟩ := Setting.table.inj htable
            exact hkeys _ _ ▸ (hvalues _ hv).of_table.1
        | _ => cases htable

end StateDiagram

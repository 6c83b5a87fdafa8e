import StateDiagram.Proofs.Page
import StateDiagram.Proofs.UniqueReading
import Mathlib.Data.List.Dedup
import Mathlib.Data.Set.List

/-!
# `Proofs.PlainListing` — what the plain listing of tokens tells

The plain listing writes tokens one after the other with nothing between them, and a new line where the
row changes. It can still be cut into tokens, for a token ends at its angle bracket, which no name has.
What it tells is exactly the category of every token, the text of every name, and where the row changes;
neither columns, nor how many rows lie between two tokens. And as rows never decrease, each line of the
listing is one of the rows that have a token.

## Contents

* `Entry`, `Entry.write` — what the listing tells of a token, and how it is written;
* `Entry.unmistakable`, `eq_of_write` — entries are told from what is written of them;
* `entriesFrom`, `toList_listing` — the entries of tokens, and the listing made of them;
* `SameListing`, `sameListing_iff` — what tokens with the same entries share;
* `length_lines_listing` — the lines of a listing are the rows of its tokens;
* `listing_eq_iff` — the plain listings of two sources.
-/

namespace StateDiagram

/-! ## Entries -/

/-- **What the plain listing tells of a token.** -/
structure Entry where
  /-- The token is on another row than the one before. -/
  onNewRow : Bool
  kind : Kind
  /-- The text of the token, if it is a name. -/
  name? : Option String

namespace Entry

/-- What stands between the angle brackets. -/
def inner (e : Entry) : List Char :=
  e.kind.name.toList ++ e.name?.elim [] fun name => ':' :: name.toList

def write (e : Entry) : List Char :=
  (if e.onNewRow then ['\n'] else []) ++ '<' :: (e.inner ++ ['>'])

/-- A name without angle brackets and line breaks, if any. -/
def IsPlain (e : Entry) : Prop :=
  ∀ name ∈ e.name?, '>' ∉ name.toList ∧ '\n' ∉ name.toList

variable {e f : Entry}

theorem not_mem_kind_name (k : Kind) :
    ':' ∉ k.name.toList ∧ '>' ∉ k.name.toList ∧ '\n' ∉ k.name.toList := by
  cases k <;> decide

theorem IsPlain.not_mem_inner (h : e.IsPlain) : '>' ∉ e.inner ∧ '\n' ∉ e.inner := by
  obtain ⟨-, hclose, hbreak⟩ := not_mem_kind_name e.kind
  unfold inner
  cases hname : e.name? with
  | none => simp [hclose, hbreak]
  | some name =>
      obtain ⟨hclose', hbreak'⟩ := h name hname
      simp [hclose, hbreak, hclose', hbreak']

/-- **What stands between the brackets tells the category**, which ends at the colon, and the name. -/
theorem eq_of_inner (h : e.inner = f.inner) : e.kind = f.kind ∧ e.name? = f.name? := by
  have hrun (k : Kind) : ∀ c ∈ k.name.toList, (c != ':') = true := by
    intro c hc
    rw [bne_iff_ne]
    rintro rfl
    exact (not_mem_kind_name k).1 hc
  have hstops (name? : Option String) :
      Stops (· != ':') (name?.elim [] fun name => ':' :: name.toList) := by
    cases name? <;> simp
  obtain ⟨hkind, hname⟩ := eq_of_run_append (hrun _) (hrun _) (hstops _) (hstops _) h
  refine ⟨Kind.name_injective (String.toList_inj.mp hkind), ?_⟩
  cases he : e.name? with
  | none =>
      cases hf : f.name? with
      | none => rfl
      | some name =>
          rw [he, hf] at hname
          cases hname
  | some name =>
      cases hf : f.name? with
      | none =>
          rw [he, hf] at hname
          cases hname
      | some other =>
          rw [he, hf] at hname
          exact congrArg some (String.toList_inj.mp (List.cons.inj hname).2)

/-- **A plain entry is unmistakable** among plain ones, whatever follows. -/
theorem unmistakable (e : {e : Entry // e.IsPlain}) :
    Unmistakable (fun _ => True) (fun e : {e : Entry // e.IsPlain} => e.1.write) e := by
  intro f r s _ _ h
  obtain ⟨⟨eRow, eKind, eName⟩, he⟩ := e
  obtain ⟨⟨fRow, fKind, fName⟩, hf⟩ := f
  -- A new line is seen at once; an angle bracket ends the rest.
  have hrow : eRow = fRow := by
    cases eRow <;> cases fRow <;> simp [write] at h ⊢
  subst hrow
  simp only [write, List.append_assoc, List.cons_append, List.append_cancel_left_eq,
    List.cons.injEq, true_and, List.nil_append] at h
  have hrun {e : Entry} (he : e.IsPlain) : ∀ c ∈ e.inner, (c != '>') = true := by
    intro c hc
    rw [bne_iff_ne]
    rintro rfl
    exact he.not_mem_inner.1 hc
  obtain ⟨hinner, hrest⟩ := eq_of_run_append (hrun he) (hrun hf) (by simp) (by simp) h
  obtain ⟨rfl, rfl⟩ := eq_of_inner hinner
  exact ⟨rfl, (List.cons.inj hrest).2⟩

/-- **Plain entries are told from what is written of them**, one after the other. -/
theorem eq_of_write {es fs : List Entry} (hes : ∀ e ∈ es, e.IsPlain) (hfs : ∀ f ∈ fs, f.IsPlain)
    (h : es.flatMap write = fs.flatMap write) : es = fs := by
  lift es to List {e : Entry // e.IsPlain} using hes
  lift fs to List {e : Entry // e.IsPlain} using hfs
  have hend : Closes (fun _ => True) (fun e : {e : Entry // e.IsPlain} => e.1.write) [] := by
    refine ⟨trivial, fun e rest hnil => ?_⟩
    have hempty : e.1.write = [] := (List.append_eq_nil_iff.mp hnil.symm).1
    simp [write] at hempty
  have htexts : es.flatMap (fun e => e.1.write) ++ [] = fs.flatMap (fun e => e.1.write) ++ [] := by
    rwa [List.flatMap_map, List.flatMap_map, ← List.append_nil (es.flatMap _),
      ← List.append_nil (fs.flatMap _)] at h
  have hentries := Unmistakable.list (fun e _ => unmistakable e) (fun _ _ => trivial) hend hend htexts
  rw [hentries.1]

end Entry

/-! ## The entries of tokens -/

variable {t : Token} {ts us : List Token} {row : Nat}

/-- The text of a token that is a name. -/
def Token.name? (t : Token) : Option String :=
  if t.kind.isName then some t.value else none

/-- The entry of a token that follows a token on row `row`. -/
def Token.entry (row : Nat) (t : Token) : Entry :=
  ⟨t.position.row != row, t.kind, t.name?⟩

/-- The entries of tokens that follow a token on row `row`. -/
def entriesFrom (row : Nat) : List Token → List Entry
  | [] => []
  | t :: ts => t.entry row :: entriesFrom t.position.row ts

/-- The row of the first token. -/
def firstRow : List Token → Nat
  | [] => 1
  | t :: _ => t.position.row

theorem Token.toList_display (row : Nat) (t : Token) :
    t.display.toList = '<' :: ((t.entry row).inner ++ ['>']) := by
  unfold display Kind.display Entry.inner entry name?
  cases h : t.kind.isName with
  | true => simp
  | false => simp

theorem toList_listingFrom (row : Nat) (ts : List Token) :
    (listingFrom row ts).toList = (entriesFrom row ts).flatMap Entry.write := by
  induction ts generalizing row with
  | nil => rfl
  | cons t ts ih =>
      have hbreak : (if t.position.row = row then "" else "\n").toList =
          if (t.entry row).onNewRow then ['\n'] else [] := by
        by_cases h : t.position.row = row <;> simp [Token.entry, h]
      rw [listingFrom, entriesFrom, List.flatMap_cons, Entry.write, String.toList_append,
        String.toList_append, hbreak, t.toList_display row, ih]

/-- **The plain listing is what is written of the entries**; the first token is on no new row. -/
theorem toList_listing (ts : List Token) :
    (listing ts).toList = (entriesFrom (firstRow ts) ts).flatMap Entry.write := by
  rw [← toList_listingFrom]
  cases ts with
  | nil => rfl
  | cons t ts => simp [listing, listingFrom, firstRow]

theorem Token.IsSpelled.isPlain_entry (h : t.IsSpelled) (row : Nat) : (t.entry row).IsPlain := by
  intro name hname
  cases hkind : t.kind.isName with
  | false => simp [Token.entry, Token.name?, hkind] at hname
  | true =>
      obtain rfl : t.value = name := by simpa [Token.entry, Token.name?, hkind] using hname
      have htext := (h.isLegal hkind).isNameText
      simp only [isNameText, Bool.and_eq_true, List.all_eq_true] at htext
      constructor
      · intro hmem
        exact absurd (htext.2 _ hmem) (by decide)
      · intro hmem
        exact absurd (htext.2 _ hmem) (by decide)

theorem isPlain_of_mem_entriesFrom (hts : ∀ t ∈ ts, t.IsSpelled) (row : Nat) :
    ∀ e ∈ entriesFrom row ts, e.IsPlain := by
  induction ts generalizing row with
  | nil => exact nofun
  | cons t ts ih =>
      rw [List.forall_mem_cons] at hts
      exact List.forall_mem_cons.mpr ⟨hts.1.isPlain_entry row, ih hts.2 _⟩

/-- **The listings of well spelled tokens are the same** exactly if their entries are. -/
theorem listing_eq_iff_entriesFrom (hts : ∀ t ∈ ts, t.IsSpelled) (hus : ∀ t ∈ us, t.IsSpelled) :
    listing ts = listing us ↔ entriesFrom (firstRow ts) ts = entriesFrom (firstRow us) us := by
  rw [← String.toList_inj, toList_listing, toList_listing]
  constructor
  · exact Entry.eq_of_write (isPlain_of_mem_entriesFrom hts _) (isPlain_of_mem_entriesFrom hus _)
  · exact congrArg (List.flatMap Entry.write)

/-! ## What tokens with the same entries share -/

/-- The token after the `i`-th is on another row than that one. -/
def RowChanges (ts : List Token) (i : Nat) : Prop :=
  ∃ t u : Token, ts[i]? = some t ∧ ts[i + 1]? = some u ∧ t.position.row ≠ u.position.row

instance (ts : List Token) (i : Nat) : Decidable (RowChanges ts i) :=
  match ht : ts[i]?, hu : ts[i + 1]? with
  | some t, some u => decidable_of_iff (t.position.row ≠ u.position.row) (by simp [RowChanges, ht, hu])
  | none, _ => .isFalse (by simp [RowChanges, ht])
  | some _, none => .isFalse (by simp [RowChanges, hu])

/-- **What two lists of tokens share that have one plain listing**: their length, the category of each
    token, the text of each name, and after which tokens the row changes. -/
structure SameListing (ts us : List Token) : Prop where
  length_eq : ts.length = us.length
  kind_eq : ∀ i : Nat, ts[i]?.map Token.kind = us[i]?.map Token.kind
  name_eq : ∀ (i : Nat) (t u : Token), ts[i]? = some t → us[i]? = some u →
    t.kind = .state ∨ t.kind = .identifier → t.value = u.value
  changes_eq : {i | RowChanges ts i} = {i | RowChanges us i}

theorem isName_iff {k : Kind} : k.isName = true ↔ k = .state ∨ k = .identifier := by
  cases k <;> simp [Kind.isName]

/-- Where the categories are the same and the texts of names, the same is told of each token by itself. -/
theorem SameListing.shown_eq (h : SameListing ts us) (i : Nat) :
    ts[i]?.map (fun t => (t.kind, t.name?)) = us[i]?.map fun t => (t.kind, t.name?) := by
  have hkind := h.kind_eq i
  cases ht : ts[i]? with
  | none =>
      rw [ht, Option.map_none, eq_comm, Option.map_eq_none_iff] at hkind
      rw [hkind]
  | some t =>
      rw [ht, Option.map_some, eq_comm, Option.map_eq_some_iff] at hkind
      obtain ⟨u, hu, hkind⟩ := hkind
      have hname : u.name? = t.name? := by
        unfold Token.name?
        rw [hkind]
        by_cases hisName : t.kind.isName = true
        · rw [if_pos hisName, if_pos hisName, h.name_eq i t u ht hu (isName_iff.mp hisName)]
        · rw [if_neg hisName, if_neg hisName]
      rw [hu, Option.map_some, Option.map_some, hkind, hname]

/-- The first token has the entry that it has by itself. -/
theorem getElem?_entriesFrom_zero (ts : List Token) :
    (entriesFrom (firstRow ts) ts)[0]? =
      (ts[0]?.map fun t => (t.kind, t.name?)).map fun shown => ⟨false, shown.1, shown.2⟩ := by
  cases ts with
  | nil => rfl
  | cons t ts => simp [entriesFrom, Token.entry, firstRow]

/-- **The entry of a later token** is what it has by itself, and whether the row changes before it. -/
theorem getElem?_entriesFrom_succ (row : Nat) (ts : List Token) (i : Nat) :
    (entriesFrom row ts)[i + 1]? = (ts[i + 1]?.map fun t => (t.kind, t.name?)).map
      fun shown => ⟨decide (RowChanges ts i), shown.1, shown.2⟩ := by
  induction ts generalizing row i with
  | nil => rfl
  | cons t ts ih =>
      show (entriesFrom t.position.row ts)[i]? = _
      cases i with
      | zero =>
          cases ts with
          | nil => rfl
          | cons u ts =>
              have hchange : RowChanges (t :: u :: ts) 0 ↔ u.position.row ≠ t.position.row := by
                simp [RowChanges, eq_comm]
              by_cases hrow : u.position.row = t.position.row <;>
                simp [entriesFrom, Token.entry, hchange, hrow]
      | succ i =>
          have hchange : decide (RowChanges (t :: ts) (i + 1)) = decide (RowChanges ts i) :=
            decide_eq_decide.mpr Iff.rfl
          rw [ih t.position.row i, List.getElem?_cons_succ, hchange]

/-- So the entries of tokens tell where the row changes, -/
theorem rowChanges_iff (row : Nat) (ts : List Token) (i : Nat) :
    RowChanges ts i ↔ ∃ e : Entry, (entriesFrom row ts)[i + 1]? = some e ∧ e.onNewRow = true := by
  rw [getElem?_entriesFrom_succ]
  constructor
  · rintro ⟨t, u, ht, hu, hrow⟩
    exact ⟨⟨true, u.kind, u.name?⟩, by simp [hu, show RowChanges ts i from ⟨t, u, ht, hu, hrow⟩], rfl⟩
  · rintro ⟨e, he, hflag⟩
    obtain ⟨shown, -, rfl⟩ := Option.map_eq_some_iff.mp he
    exact of_decide_eq_true hflag

/-- and what each is by itself. -/
theorem map_entriesFrom (row : Nat) (ts : List Token) :
    (entriesFrom row ts).map (fun e => (e.kind, e.name?)) = ts.map fun t => (t.kind, t.name?) := by
  induction ts generalizing row with
  | nil => rfl
  | cons t ts ih => rw [entriesFrom, List.map_cons, List.map_cons, ih, Token.entry]

/-- **Tokens have the same entries** exactly if they share what a plain listing tells. -/
theorem sameListing_iff :
    SameListing ts us ↔ entriesFrom (firstRow ts) ts = entriesFrom (firstRow us) us := by
  constructor
  · intro h
    apply List.ext_getElem?
    intro i
    cases i with
    | zero => rw [getElem?_entriesFrom_zero, getElem?_entriesFrom_zero, h.shown_eq 0]
    | succ i =>
        have hchange : decide (RowChanges ts i) = decide (RowChanges us i) :=
          decide_eq_decide.mpr (iff_of_eq (congrFun h.changes_eq i))
        rw [getElem?_entriesFrom_succ, getElem?_entriesFrom_succ, h.shown_eq (i + 1), hchange]
  · intro h
    have hshown : ts.map (fun t => (t.kind, t.name?)) = us.map fun t => (t.kind, t.name?) := by
      rw [← map_entriesFrom (firstRow ts), h, map_entriesFrom]
    have hat (i : Nat) : ts[i]?.map (fun t => (t.kind, t.name?)) =
        us[i]?.map fun t => (t.kind, t.name?) := by
      rw [← List.getElem?_map, hshown, List.getElem?_map]
    constructor
    case length_eq => simpa using congrArg List.length hshown
    case kind_eq =>
      intro i
      simpa [Option.map_map, Function.comp_def] using congrArg (Option.map Prod.fst) (hat i)
    case name_eq =>
      intro i t u ht hu hname
      have hsame : (t.kind, t.name?) = (u.kind, u.name?) := by simpa [ht, hu] using hat i
      obtain ⟨hkind, htext⟩ := Prod.mk.inj hsame
      unfold Token.name? at htext
      rw [← hkind, if_pos (isName_iff.mpr hname), if_pos (isName_iff.mpr hname)] at htext
      exact Option.some.inj htext
    case changes_eq =>
      ext i
      show RowChanges ts i ↔ RowChanges us i
      rw [rowChanges_iff (firstRow ts), h, ← rowChanges_iff]

/-! ## Lines and rows -/

theorem length_splitOn_newline (cs : List Char) :
    (cs.splitOn '\n').length = cs.count '\n' + 1 := by
  induction cs with
  | nil => rfl
  | cons c cs ih =>
      rw [List.splitOn_cons_eq_if_modifyHead]
      by_cases h : c = '\n'
      · simp [h, ih]
      · simp [h, ih]

/-- An entry begins a line if the row changes, and breaks none. -/
theorem Entry.IsPlain.count_newline {e : Entry} (h : e.IsPlain) :
    e.write.count '\n' = if e.onNewRow then 1 else 0 := by
  have hinner : e.inner.count '\n' = 0 := List.count_eq_zero.mpr h.not_mem_inner.2
  cases hrow : e.onNewRow <;> simp [Entry.write, hrow, hinner]

/-- **The listing has a line for each row**: rows do not decrease, so a row that is not the one before has
    not been seen. -/
theorem count_newline_entriesFrom (hts : ∀ t ∈ ts, t.IsSpelled)
    (hrows : (row :: ts.map (·.position.row)).Pairwise (· ≤ ·)) :
    ((entriesFrom row ts).flatMap Entry.write).count '\n' + 1 =
      (row :: ts.map (·.position.row)).dedup.length := by
  induction ts generalizing row with
  | nil => rfl
  | cons t ts ih =>
      rw [List.forall_mem_cons] at hts
      obtain ⟨hrow, hlater⟩ := List.pairwise_cons.mp hrows
      have hrest := ih hts.2 hlater
      rw [entriesFrom, List.flatMap_cons, List.count_append, (hts.1.isPlain_entry row).count_newline,
        Nat.add_assoc, hrest]
      by_cases hsame : row = t.position.row
      · subst hsame
        rw [List.map_cons, List.dedup_cons_of_mem List.mem_cons_self]
        simp [Token.entry]
      · have hfresh : row ∉ t.position.row :: ts.map (·.position.row) := by
          intro hmem
          rcases List.mem_cons.mp hmem with heq | hmem
          · exact hsame heq
          · have hle := (List.pairwise_cons.mp hlater).1 row hmem
            have hge : row ≤ t.position.row := hrow _ List.mem_cons_self
            exact hsame (Nat.le_antisymm hge hle)
        rw [List.map_cons, List.dedup_cons_of_notMem hfresh]
        simp [Token.entry, Ne.symm hsame, Nat.add_comm]

/-! ## The listings of sources -/

variable {source other : String}

/-- The rows of a source's tokens do not decrease. -/
theorem rows_pairwise (h : tokens source = .ok ts) :
    (ts.map (·.position.row)).Pairwise (· ≤ ·) := by
  refine List.pairwise_map.mpr ((tokens_pairwise h).imp fun {t u} hends => ?_)
  rcases Position.le_iff.mp hends with hrow | ⟨hrow, -⟩
  · exact Nat.le_of_lt hrow
  · exact Nat.le_of_eq hrow

/-- **The lines of a listing are the rows of its tokens.** -/
theorem length_lines_listing (h : tokens source = .ok ts) (hne : listing ts ≠ "") :
    ((listing ts).toList.splitOn '\n').length = (ts.map (·.position.row)).dedup.length := by
  have hrows := rows_pairwise h
  have hspelled := isSpelled_of_mem_tokens h
  cases ts with
  | nil => exact absurd rfl hne
  | cons t ts =>
      -- The first row is counted once, as the row before it and as its own.
      have hfirst : (t.position.row :: (t :: ts).map (·.position.row)).Pairwise (· ≤ ·) := by
        refine List.pairwise_cons.mpr ⟨fun row hrow => ?_, hrows⟩
        rcases List.mem_cons.mp hrow with rfl | hrow
        · exact Nat.le_refl _
        · exact (List.pairwise_cons.mp hrows).1 row hrow
      rw [length_splitOn_newline, toList_listing, firstRow, count_newline_entriesFrom hspelled hfirst,
        List.map_cons, List.dedup_cons_of_mem List.mem_cons_self]

/-- **The plain listing of a source is an exact fingerprint of its tokens.** Two sources have the same one
    exactly if they have equally many tokens, of the same categories, names with the same texts, and the
    row changes after the same tokens. And a listing that is not empty has as many lines as there are rows
    with a token. -/
theorem listing_eq_iff (hts : tokens source = .ok ts) (hus : tokens other = .ok us)
    (layout layout' : Layout) :
    (process source ⟨.token, .simple⟩ layout = process other ⟨.token, .simple⟩ layout' ↔
      SameListing ts us) ∧
    ∃ text, process source ⟨.token, .simple⟩ layout = .ok text ∧
      (text ≠ "" → (text.toList.splitOn '\n').length = (ts.map (·.position.row)).dedup.length) := by
  have hfirst : process source ⟨.token, .simple⟩ layout = .ok (listing ts) := by
    simp only [process, hts, writeTokens]
  have hsecond : process other ⟨.token, .simple⟩ layout' = .ok (listing us) := by
    simp only [process, hus, writeTokens]
  refine ⟨?_, listing ts, hfirst, length_lines_listing hts⟩
  rw [hfirst, hsecond, Except.ok.injEq, sameListing_iff]
  exact listing_eq_iff_entriesFrom (isSpelled_of_mem_tokens hts) (isSpelled_of_mem_tokens hus)

/-- Blanks between tokens and empty rows are not told, but the row of the semicolon is; and the two rows
    with a token are two lines. -/
theorem listing_eq_iff_blanks :
    let source := "START -> q\n\n\n; END"
    let other := " START->q\n;\tEND"
    let ts : List Token := [⟨.start, "START", ⟨1, 1⟩⟩, ⟨.arrow, "->", ⟨1, 7⟩⟩, ⟨.state, "q", ⟨1, 10⟩⟩,
      ⟨.semicolon, ";", ⟨4, 1⟩⟩, ⟨.endMark, "END", ⟨4, 3⟩⟩]
    let us : List Token := [⟨.start, "START", ⟨1, 2⟩⟩, ⟨.arrow, "->", ⟨1, 7⟩⟩, ⟨.state, "q", ⟨1, 9⟩⟩,
      ⟨.semicolon, ";", ⟨2, 1⟩⟩, ⟨.endMark, "END", ⟨2, 3⟩⟩]
    tokens source = .ok ts ∧ tokens other = .ok us ∧ SameListing ts us ∧
      process source ⟨.token, .simple⟩ .standard = .ok "<start><arrow><state:q>\n<semicolon><end>" ∧
      ("<start><arrow><state:q>\n<semicolon><end>".toList.splitOn '\n').length =
        (ts.map (·.position.row)).dedup.length := by
  intro source other ts us
  have hts : tokens source = .ok ts := by decide +kernel
  have hus : tokens other = .ok us := by decide +kernel
  obtain ⟨hsame, text, htext, hlines⟩ := listing_eq_iff hts hus .standard .standard
  have hsource : process source ⟨.token, .simple⟩ .standard =
      .ok "<start><arrow><state:q>\n<semicolon><end>" := by decide +kernel
  have hother : process other ⟨.token, .simple⟩ .standard =
      .ok "<start><arrow><state:q>\n<semicolon><end>" := by decide +kernel
  obtain rfl := Except.ok.inj (htext.symm.trans hsource)
  exact ⟨hts, hus, hsame.mp (hsource.trans hother.symm), hsource, hlines (by decide)⟩

end StateDiagram

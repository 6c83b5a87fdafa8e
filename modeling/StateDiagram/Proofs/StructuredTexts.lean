import StateDiagram.Pipeline
import StateDiagram.Proofs.UniqueReading

/-!
# `Proofs.StructuredTexts` — structured texts tell their values

No two programs have the same structured text, and no two lists of tokens, whatever texts their names
are. A text in quotes cannot be left from within, for every quote in it is escaped; a number ends where
no digit follows; and a list or a record has a comma before each part but the first and a new line before
its end. So each value is unmistakable before whatever may follow it, by induction on the value. The
records of statements and of tokens in turn tell these apart.

## Contents

* `Json.unescape`, `Json.unescape_escape` — an escaped character is read back;
* `Json.unmistakable_quote`, `Json.unmistakable_number` — texts in quotes, numbers;
* `Json.block_unique` — what stands between the brackets of a list or a record;
* `Json.unmistakable_prettyAt`, `Json.pretty_inj` — every value is unmistakable;
* `Statement.eq_of_json`, `Token.eq_of_json` — records tell statements and tokens apart;
* `structured_iff_eq` — so do the structured texts of programs and of lists of tokens.
-/

namespace StateDiagram

variable {r s : List Char}

namespace Json

/-! ## Texts in quotes -/

/-- The value of a hexadecimal digit. -/
def digitValue (c : Char) : Nat :=
  "0123456789abcdef".toList.idxOf c

/-- The character that is told after a backslash, and what follows. -/
def unescapeLetter : List Char → Option (Char × List Char)
  | '"' :: r => some ('"', r)
  | '\\' :: r => some ('\\', r)
  | 'n' :: r => some ('\n', r)
  | 'r' :: r => some ('\r', r)
  | 't' :: r => some ('\t', r)
  | 'b' :: r => some ('\x08', r)
  | 'f' :: r => some ('\x0c', r)
  | 'u' :: '0' :: '0' :: high :: low :: r =>
    some (Char.ofNat (16 * digitValue high + digitValue low), r)
  | _ => none

/-- The first character of what stands in quotes, read back, and what follows it. -/
def unescape : List Char → Option (Char × List Char)
  | [] => none
  | c :: r => if c = '\\' then unescapeLetter r else some (c, r)

/-- Two hexadecimal digits tell the number of a control character. -/
theorem digitValue_digitChar : ∀ n < 0x20,
    16 * digitValue (Nat.digitChar (n / 16)) + digitValue (Nat.digitChar (n % 16)) = n := by
  decide

/-- **A character in quotes is read back**, whatever follows it. -/
theorem unescape_escape (c : Char) (r : List Char) : unescape (escape c ++ r) = some (c, r) := by
  unfold escape
  split
  case h_8 hslash _ _ _ _ _ =>
    by_cases hcontrol : c.toNat < 0x20
    · rw [if_pos hcontrol]
      show some (Char.ofNat (16 * digitValue _ + digitValue _), r) = some (c, r)
      rw [digitValue_digitChar _ hcontrol, Char.ofNat_toNat]
    · rw [if_neg hcontrol]
      show (if c = '\\' then _ else some (c, r)) = some (c, r)
      exact if_neg hslash
  all_goals rfl

/-- Of two escaped characters that are read alike, one is the other. -/
theorem unmistakable_escape (c : Char) : Unmistakable (fun _ => True) escape c := by
  intro d r s _ _ h
  have hread : some (c, r) = some (d, s) := by
    rw [← unescape_escape, h, unescape_escape]
  simpa using hread

/-- The quote at the end of a text is none of its characters. -/
theorem closes_quote (r : List Char) : Closes (fun _ => True) escape ('"' :: r) where
  follows := trivial
  no_part c rest h := by
    have hread : some ('"', r) = some (c, rest) := by
      rw [← unescape_escape c rest, ← h]
      rfl
    obtain ⟨rfl, rfl⟩ := Prod.mk.inj (Option.some.inj hread)
    cases h

/-- **A text in quotes is unmistakable**, whatever follows it. -/
theorem unmistakable_quote (text : String) :
    Unmistakable (fun _ => True) (fun text => (quote text).toList) text := by
  intro other r s _ _ h
  have hinner : text.toList.flatMap escape ++ '"' :: r = other.toList.flatMap escape ++ '"' :: s := by
    simpa [quote] using h
  obtain ⟨htext, hrest⟩ := Unmistakable.list (fun c _ => unmistakable_escape c) (fun _ _ => trivial)
    (closes_quote r) (closes_quote s) hinner
  exact ⟨String.toList_inj.mp htext, (List.cons.inj hrest).2⟩

/-! ## Numbers -/

/-- The texts that may follow a value: they do not go on with digits. -/
abbrev Ends : List Char → Prop :=
  Stops Char.isDigit

theorem isDigit_of_mem_toString {n : Nat} {c : Char} (h : c ∈ (toString n).toList) :
    c.isDigit = true := by
  rw [Nat.toString_eq_repr, Nat.toList_repr] at h
  exact Nat.isDigit_of_mem_toDigits (by decide) (by decide) h

/-- **A number is unmistakable** where no digit follows. -/
theorem unmistakable_number (n : Nat) :
    Unmistakable Ends (fun n : Nat => (toString n).toList) n := by
  intro m r s hr hs h
  obtain ⟨hdigits, hrest⟩ := eq_of_run_append (fun _ => isDigit_of_mem_toString)
    (fun _ => isDigit_of_mem_toString) hr hs h
  have hvalue := congrArg (Nat.ofDigitChars 10 · 0) hdigits
  simp only [Nat.toString_eq_repr, Nat.toList_repr, Nat.ofDigitChars_ten_toDigits] at hvalue
  exact ⟨hvalue, hrest⟩

/-! ## Lists and records -/

variable {α : Type} {write : α → String} {items others : List α} {depth : Nat}

/-- A part of a list or a record that is not the first: it has a comma and a line of its own. -/
def laterPart (depth : Nat) (part : String) : List Char :=
  ',' :: ((newline depth).toList ++ part.toList)

theorem newline_eq (depth : Nat) :
    (newline depth).toList = '\n' :: List.replicate (2 * depth) ' ' := by
  simp [newline]

theorem toList_commas_newline (part : String) (parts : List String) :
    (commas ((part :: parts).map (newline depth ++ ·))).toList =
      (newline depth).toList ++ part.toList ++ parts.flatMap (laterPart depth) := by
  unfold commas
  induction parts generalizing part with
  | nil => simp
  | cons next parts ih =>
      rw [List.map_cons, List.map_cons, String.intercalate_cons_cons, ← List.map_cons,
        String.toList_append, String.toList_append, ih next]
      simp [laterPart]

/-- What stands between brackets: the first part, the later ones, and a line for the bracket. -/
theorem toList_block_cons (part : String) (parts : List String) :
    (block depth (part :: parts)).toList =
      (newline (depth + 1)).toList ++ part.toList ++ parts.flatMap (laterPart (depth + 1)) ++
        (newline depth).toList := by
  rw [block, if_neg (by simp), String.toList_append, toList_commas_newline]

variable {close : Char}

/-- A later part is as unmistakable as it would be by itself. -/
theorem unmistakable_laterPart {x : α} (h : Unmistakable Ends (fun x => (write x).toList) x) :
    Unmistakable Ends (fun x => laterPart depth (write x)) x := by
  intro y r s hr hs heq
  have hline : (newline depth).toList ++ ((write x).toList ++ r) =
      (newline depth).toList ++ ((write y).toList ++ s) := by
    simpa [laterPart] using heq
  exact h hr hs (List.append_cancel_left hline)

/-- The new line before the end of a list is no later part. -/
theorem closes_newline (rest : List Char) :
    Closes Ends (fun x : α => laterPart depth (write x)) ('\n' :: rest) where
  follows := by simp
  no_part x more h := by
    obtain ⟨hcomma, -⟩ := List.cons.inj h
    exact absurd hcomma (by decide)

/-- **Unmistakable parts make an unmistakable list or record**: what stands between the brackets tells
    the parts, and what follows is the same. -/
theorem block_unique (hitems : ∀ x ∈ items, Unmistakable Ends (fun x => (write x).toList) x)
    (hclose : close ≠ '\n')
    (h : (block depth (items.map write)).toList ++ close :: r =
      (block depth (others.map write)).toList ++ close :: s) : items = others ∧ r = s := by
  have hempty {x : α} {xs : List α} {r s : List Char} :
      (block depth ((x :: xs).map write)).toList ++ close :: r ≠ close :: s := by
    rw [List.map_cons, toList_block_cons, newline_eq]
    intro h
    exact hclose (List.cons.inj h).1.symm
  cases items with
  | nil =>
      cases others with
      | nil => exact ⟨rfl, (List.cons.inj h).2⟩
      | cons y others => exact absurd h.symm hempty
  | cons x items =>
      cases others with
      | nil => exact absurd h hempty
      | cons y others =>
          rw [List.forall_mem_cons] at hitems
          simp only [List.map_cons, toList_block_cons, newline_eq depth, List.append_assoc,
            List.flatMap_map, List.cons_append] at h
          have hfollows (xs : List α) (rest : List Char) :
              Ends (xs.flatMap (fun x => laterPart (depth + 1) (write x)) ++ '\n' :: rest) :=
            (closes_newline rest).follows_list (fun _ _ => by simp [laterPart]) xs
          obtain ⟨rfl, hlater⟩ :=
            hitems.1 (hfollows items _) (hfollows others _) (List.append_cancel_left h)
          obtain ⟨rfl, hend⟩ := Unmistakable.list (fun x hx => unmistakable_laterPart (hitems.2 x hx))
            (fun _ _ => by simp [laterPart]) (closes_newline _) (closes_newline _) hlater
          have hrest := List.append_cancel_left (List.cons.inj hend).2
          exact ⟨rfl, (List.cons.inj hrest).2⟩

/-! ## Values -/

/-- The forms of values. -/
inductive Form where
  | text
  | number
  | list
  | record
deriving DecidableEq

/-- The form of a value. -/
def form : Json → Form
  | .str _ => .text
  | .num _ => .number
  | .arr _ => .list
  | .obj _ => .record

/-- The form of the values whose texts begin with a character. -/
def formOf (c : Char) : Form :=
  if c = '"' then .text else if c = '[' then .list else if c = '\x7b' then .record else .number

theorem formOf_of_isDigit {c : Char} (h : c.isDigit = true) : formOf c = .number := by
  have hne {d : Char} (hd : d.isDigit = false) : c ≠ d := by
    rintro rfl
    rw [h] at hd
    cases hd
  rw [formOf, if_neg (hne (by decide)), if_neg (hne (by decide)), if_neg (hne (by decide))]

/-- **The first character of a text tells the form of its value.** -/
theorem form_of_head (depth : Nat) (v : Json) :
    (v.prettyAt depth).toList.head?.map formOf = some v.form := by
  cases v with
  | str text => simp [prettyAt, quote, formOf, form]
  | arr items => simp [prettyAt, formOf, form]
  | obj fields => simp [prettyAt, formOf, form]
  | num n =>
      have hne : (toString n).toList ≠ [] := by
        rw [Nat.toString_eq_repr, Nat.toList_repr]
        exact Nat.toDigits_ne_nil
      obtain ⟨c, cs, hcs⟩ := List.exists_cons_of_ne_nil hne
      have hdigit : c.isDigit = true := isDigit_of_mem_toString (hcs ▸ List.mem_cons_self)
      rw [prettyAt, hcs, List.head?_cons, Option.map_some, formOf_of_isDigit hdigit, form]

/-- Values that are read alike are of one form. -/
theorem form_eq_of_append {depth : Nat} {v w : Json}
    (h : (v.prettyAt depth).toList ++ r = (w.prettyAt depth).toList ++ s) : v.form = w.form := by
  have hhead (u : Json) (rest : List Char) :
      ((u.prettyAt depth).toList ++ rest).head?.map formOf = some u.form := by
    have hform := form_of_head depth u
    cases htext : (u.prettyAt depth).toList with
    | nil =>
        rw [htext] at hform
        cases hform
    | cons c cs =>
        rw [htext] at hform
        exact hform
  have hforms : some v.form = some w.form := by
    rw [← hhead v r, h, hhead w s]
  exact Option.some.inj hforms

/-- A field is unmistakable if its value is. -/
theorem unmistakable_field {field : String × Json}
    (h : Unmistakable Ends (fun v => (prettyAt depth v).toList) field.2) :
    Unmistakable Ends (fun field => (prettyField depth field).toList) field := by
  intro other r s hr hs heq
  simp only [prettyField, String.toList_append, List.append_assoc] at heq
  obtain ⟨hkey, hvalue⟩ := unmistakable_quote field.1 trivial trivial heq
  obtain ⟨hvalue, hrest⟩ := h hr hs (List.append_cancel_left hvalue)
  exact ⟨Prod.ext hkey hvalue, hrest⟩

mutual

/-- **A value is unmistakable** at any depth, before all that may follow it. -/
theorem unmistakable_prettyAt (depth : Nat) (v : Json) :
    Unmistakable Ends (fun v => (prettyAt depth v).toList) v := by
  intro w r s hr hs h
  have hform : v.form = w.form := form_eq_of_append h
  -- Values of different forms begin differently; within a form, what a value holds is read.
  cases v with
  | str text =>
      cases w with
      | str other =>
          obtain ⟨rfl, hrest⟩ := unmistakable_quote text trivial trivial h
          exact ⟨rfl, hrest⟩
      | _ => cases hform
  | num n =>
      cases w with
      | num m =>
          obtain ⟨rfl, hrest⟩ := unmistakable_number n hr hs h
          exact ⟨rfl, hrest⟩
      | _ => cases hform
  | arr items =>
      cases w with
      | arr others =>
          simp only [prettyAt, prettyItems_eq_map, String.toList_append, List.append_assoc] at h
          obtain ⟨rfl, hrest⟩ := block_unique (unmistakable_items (depth + 1) items)
            (by decide) (List.append_cancel_left h)
          exact ⟨rfl, hrest⟩
      | _ => cases hform
  | obj fields =>
      cases w with
      | obj others =>
          simp only [prettyAt, prettyFields_eq_map, String.toList_append, List.append_assoc] at h
          obtain ⟨rfl, hrest⟩ := block_unique (unmistakable_fields (depth + 1) fields)
            (by decide) (List.append_cancel_left h)
          exact ⟨rfl, hrest⟩
      | _ => cases hform

theorem unmistakable_items (depth : Nat) (items : List Json) :
    ∀ v ∈ items, Unmistakable Ends (fun v => (prettyAt depth v).toList) v := by
  cases items with
  | nil => exact nofun
  | cons item items =>
      exact List.forall_mem_cons.mpr
        ⟨unmistakable_prettyAt depth item, unmistakable_items depth items⟩

theorem unmistakable_fields (depth : Nat) (fields : List (String × Json)) :
    ∀ field ∈ fields, Unmistakable Ends (fun field => (prettyField depth field).toList) field := by
  cases fields with
  | nil => exact nofun
  | cons field fields =>
      obtain ⟨key, value⟩ := field
      exact List.forall_mem_cons.mpr
        ⟨unmistakable_field (unmistakable_prettyAt depth value), unmistakable_fields depth fields⟩

end

/-- **Different values have different texts.** -/
theorem pretty_inj {v w : Json} : v.pretty = w.pretty ↔ v = w := by
  constructor
  · intro h
    have htexts : (v.prettyAt 0).toList ++ [] = (w.prettyAt 0).toList ++ [] :=
      congrArg (fun text => text.toList ++ []) h
    exact (unmistakable_prettyAt 0 v stops_nil stops_nil htexts).1
  · exact congrArg pretty

end Json

/-! ## Programs and tokens -/

/-- A list of names is told by its value. -/
theorem Json.names_inj {names others : List String} :
    Json.names names = Json.names others ↔ names = others := by
  simp [Json.names, List.map_inj_right]

mutual

/-- **The record of a statement tells the statement**: its first field tells the kind, and the others what
    the statement holds. -/
theorem Statement.eq_of_json {s t : Statement} (h : s.json = t.json) : s = t := by
  cases s with
  | beginMark | endMark => cases t <;> simp [Statement.json] at h ⊢
  | machine name body =>
      cases t with
      | machine other inner =>
          have hfields : name = other ∧ statementsJson body = statementsJson inner := by
            simpa [Statement.json] using h
          rw [hfields.1, eq_of_statementsJson hfields.2]
      | _ => simp [Statement.json] at h
  | start state =>
      cases t with
      | start other =>
          have hstate : state = other := by simpa [Statement.json] using h
          rw [hstate]
      | _ => simp [Statement.json] at h
  | accept states =>
      cases t with
      | accept others =>
          have hstates : states = others := by simpa [Statement.json, Json.names_inj] using h
          rw [hstates]
      | _ => simp [Statement.json] at h
  | stateDef name body =>
      cases t with
      | stateDef other inner =>
          have hfields : name = other ∧ statementsJson body = statementsJson inner := by
            simpa [Statement.json] using h
          rw [hfields.1, eq_of_statementsJson hfields.2]
      | _ => simp [Statement.json] at h
  | transition label targets =>
      cases t with
      | transition other others =>
          have hfields : label = other ∧ targets = others := by
            simpa [Statement.json, Json.names_inj] using h
          rw [hfields.1, hfields.2]
      | _ => simp [Statement.json] at h

/-- So do the records of several statements. -/
theorem eq_of_statementsJson {ss ts : List Statement} (h : statementsJson ss = statementsJson ts) :
    ss = ts := by
  cases ss with
  | nil =>
      cases ts with
      | nil => rfl
      | cons t ts => simp [statementsJson] at h
  | cons s ss =>
      cases ts with
      | nil => simp [statementsJson] at h
      | cons t ts =>
          obtain ⟨hfirst, hrest⟩ := List.cons.inj h
          rw [Statement.eq_of_json hfirst, eq_of_statementsJson hrest]

end

/-- **The record of a token tells the token**: category, text, row and column. -/
theorem Token.eq_of_json {t u : Token} (h : t.json = u.json) : t = u := by
  obtain ⟨kind, value, row, col⟩ := t
  obtain ⟨kind', value', row', col'⟩ := u
  have hfields : kind.tag = kind'.tag ∧ value = value' ∧ row = row' ∧ col = col' := by
    simpa [json] using h
  obtain ⟨hkind, rfl, rfl, rfl⟩ := hfields
  rw [Kind.tag_injective hkind]

/-- **Structured texts are the same only for the same programs**, and for the same lists of tokens. All
    texts are allowed as names and values, and statements in any place. -/
theorem structured_iff_eq :
    (∀ p q : List Statement,
      Formatter.structured.serialize p = Formatter.structured.serialize q ↔ p = q) ∧
    ∀ ts us : List Token, writeTokens ts .json = writeTokens us .json ↔ ts = us := by
  refine ⟨fun p q => ⟨fun h => ?_, fun h => h ▸ rfl⟩, fun ts us => ⟨fun h => ?_, fun h => h ▸ rfl⟩⟩
  · have hvalues : programJson p = programJson q := Json.pretty_inj.mp (Except.ok.inj h)
    exact eq_of_statementsJson (Json.arr.inj hvalues)
  · have hvalues : tokensJson ts = tokensJson us := Json.pretty_inj.mp (Except.ok.inj h)
    exact (List.map_inj_right fun _ _ => Token.eq_of_json).mp (Json.arr.inj hvalues)

end StateDiagram

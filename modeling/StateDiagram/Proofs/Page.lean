import StateDiagram.Proofs.Diagnostics
import Mathlib.Logic.Function.Basic

/-!
# `Proofs.Page` — tokens written where they stand

Take a blank page, and write the text of every token at its row and column. What is on the page then is
the source, as a reader sees it who cannot tell one white space from another: so the rows and columns of
tokens are exact, and lose nothing but white space where nothing follows.

A text is read in two ways. By its lines it has a character in a row and a column; and from a place on, a
character after the other, it has one where the reading is when it comes by. Both say the same, and the
second follows the scanner, which goes from lexeme to lexeme in the same way.

## Contents

* `Position.instLT`, `Position.instLE` — places in the order in which a text is read;
* `charAt?`, `charFrom?`, `charFrom?_origin` — the character of a text in a place, in two ways;
* `Page`, `Page.ofText`, `Page.write`, `Page.ofTokens` — what is seen of a text, and of tokens;
* `Page.writeAll_lexemesFrom` — writing the lexemes of a text shows the text;
* `lexemesFrom_pairwise` — each lexeme ends before the next begins;
* `tokens_exact` — the places of tokens are exact and lossless.
-/

namespace StateDiagram

/-! ## The order of places -/

namespace Position

/-- A place is read before another: it is on an earlier row, or further left on the same one. -/
instance instLT : LT Position := ⟨fun p q => p.row < q.row ∨ p.row = q.row ∧ p.col < q.col⟩

/-- A place is read before another or is the same. -/
instance instLE : LE Position := ⟨fun p q => p.row < q.row ∨ p.row = q.row ∧ p.col ≤ q.col⟩

variable {p q r : Position}

theorem lt_iff : p < q ↔ p.row < q.row ∨ p.row = q.row ∧ p.col < q.col := Iff.rfl

theorem le_iff : p ≤ q ↔ p.row < q.row ∨ p.row = q.row ∧ p.col ≤ q.col := Iff.rfl

theorem le_refl (p : Position) : p ≤ p := .inr ⟨rfl, Nat.le_refl _⟩

theorem le_of_lt (h : p < q) : p ≤ q := by
  rw [lt_iff] at h
  rw [le_iff]
  omega

theorem lt_of_lt_of_le (hpq : p < q) (hqr : q ≤ r) : p < r := by
  rw [lt_iff] at hpq ⊢
  rw [le_iff] at hqr
  omega

theorem le_trans (hpq : p ≤ q) (hqr : q ≤ r) : p ≤ r := by
  rw [le_iff] at hpq hqr ⊢
  omega

theorem ne_of_lt (h : p < q) : p ≠ q := by
  rintro rfl
  rw [lt_iff] at h
  omega

/-- Reading goes on to later places. -/
theorem lt_next (p : Position) (c : Char) : p < p.next c := by
  unfold next
  by_cases h : c = '\n'
  · rw [if_pos h]
    exact .inl (Nat.lt_succ_self _)
  · rw [if_neg h]
    exact .inr ⟨rfl, Nat.lt_succ_self _⟩

end Position

variable {p : Cursor} {q : Position} {c : Char} {cs ds : List Char}

theorem Cursor.position_le_advance (p : Cursor) (cs : List Char) :
    p.position ≤ (p.advance cs).position := by
  induction cs generalizing p with
  | nil => exact Position.le_refl _
  | cons c cs ih => exact Position.le_trans (Position.le_of_lt (Position.lt_next _ c)) (ih (p.next c))

/-- Whatever is read moves the cursor on. -/
theorem Cursor.position_lt_advance (p : Cursor) (c : Char) (cs : List Char) :
    p.position < (p.advance (c :: cs)).position :=
  Position.lt_of_lt_of_le (Position.lt_next _ c) (Cursor.position_le_advance (p.next c) cs)

/-! ## The character in a place -/

/-- **The character of a text in a place**: lines end at line feeds, rows and columns count from one. -/
def charAt? (cs : List Char) : Position → Option Char
  | ⟨row + 1, col + 1⟩ => (cs.splitOn '\n')[row]?.bind (·[col]?)
  | _ => none

/-- The character in the place `q` of a text that is read from the place `p` on. A line feed is in no
    place. -/
def charFrom? (p : Position) : List Char → Position → Option Char
  | [], _ => none
  | c :: cs, q => if q = p ∧ c ≠ '\n' then some c else charFrom? (p.next c) cs q

/-- Reading comes by no place that is earlier. -/
theorem charFrom?_of_lt {p : Position} (h : q < p) (cs : List Char) : charFrom? p cs q = none := by
  induction cs generalizing p with
  | nil => rfl
  | cons c cs ih =>
      rw [charFrom?, if_neg fun hq => Position.ne_of_lt h hq.1]
      exact ih (Position.lt_of_lt_of_le h (Position.le_of_lt (Position.lt_next p c)))

/-- A text may be read in two pieces. -/
theorem charFrom?_append (p : Cursor) (cs ds : List Char) (q : Position) :
    charFrom? p.position (cs ++ ds) q =
      (charFrom? p.position cs q).or (charFrom? (p.advance cs).position ds q) := by
  induction cs generalizing p with
  | nil => rfl
  | cons c cs ih =>
      rw [List.cons_append, charFrom?, charFrom?]
      split
      · rfl
      · exact ih (p.next c)

/-- What a piece has in a place is read before its end. -/
theorem lt_advance_of_charFrom? (h : charFrom? p.position cs q = some c) :
    q < (p.advance cs).position := by
  induction cs generalizing p with
  | nil => cases h
  | cons d cs ih =>
      rw [charFrom?] at h
      split at h
      next hq =>
        rw [hq.1]
        exact Cursor.position_lt_advance p d cs
      next => exact ih (p := p.next d) h

/-- **Reading from a place on** finds the rest of a line there, and whole lines on the rows below. -/
theorem charFrom?_of_lines {p : Position} {first : List Char} {others : List (List Char)}
    (h : cs.splitOn '\n' = first :: others) :
    charFrom? p cs q =
      if q.row = p.row then if p.col ≤ q.col then first[q.col - p.col]? else none
      else if p.row < q.row ∧ 0 < q.col then others[q.row - p.row - 1]?.bind (·[q.col - 1]?)
      else none := by
  induction cs generalizing p first others with
  | nil =>
      obtain ⟨rfl, rfl⟩ := List.cons.inj h
      simp [charFrom?]
  | cons c cs ih =>
      obtain ⟨next, below, hnext⟩ : ∃ next below, cs.splitOn '\n' = next :: below :=
        List.exists_cons_of_ne_nil (List.splitOnP_ne_nil _ _)
      have hcons : first :: others =
          if c == '\n' then [] :: next :: below else (next :: below).modifyHead (List.cons c) := by
        rw [← h, ← hnext]
        exact List.splitOnP_cons_eq_if_modifyHead c cs
      by_cases hc : c = '\n'
      · -- A line feed: what is below is all that is left.
        obtain ⟨rfl, rfl⟩ : first = [] ∧ others = next :: below := by
          simpa [hc] using hcons
        rw [charFrom?, if_neg (by simp [hc]), ih hnext, Position.next, if_pos hc]
        dsimp only
        rcases Nat.lt_trichotomy q.row (p.row + 1) with hrow | hrow | hrow
        · have hsame : q.row ≠ p.row + 1 := Nat.ne_of_lt hrow
          have habove : ¬ p.row < q.row := Nat.not_lt.mpr (Nat.le_of_lt_succ hrow)
          have habove' : ¬ p.row + 1 < q.row := Nat.not_lt.mpr (Nat.le_of_lt hrow)
          simp [hsame, habove, habove']
        · have hbelow : p.row < q.row := hrow ▸ Nat.lt_succ_self p.row
          have hfirst : q.row - p.row - 1 = 0 := by omega
          rw [if_pos hrow, if_neg (Nat.ne_of_gt hbelow), hfirst, List.getElem?_cons_zero]
          by_cases hcol : 1 ≤ q.col
          · rw [if_pos hcol, if_pos ⟨hbelow, hcol⟩]
            rfl
          · rw [if_neg hcol, if_neg fun hboth => hcol hboth.2]
        · obtain ⟨k, hk⟩ : ∃ k, q.row = p.row + 1 + (k + 1) := ⟨q.row - p.row - 2, by omega⟩
          have hk' : q.row - (p.row + 1) - 1 = k := by omega
          have hk'' : q.row - p.row - 1 = k + 1 := by omega
          rw [if_neg (Nat.ne_of_gt hrow), if_neg (show q.row ≠ p.row by omega), hk', hk'',
            List.getElem?_cons_succ]
          simp [hrow, Nat.lt_of_succ_lt hrow]
      · -- Any other character: it is the first of the line.
        obtain ⟨rfl, rfl⟩ : first = c :: next ∧ others = below := by
          simpa [hc] using hcons
        rw [charFrom?]
        by_cases hq : q = p
        · subst hq
          simp [hc]
        · rw [if_neg (fun hboth => hq hboth.1), ih hnext, Position.next, if_neg hc]
          dsimp only
          by_cases hrow : q.row = p.row
          · rw [if_pos hrow, if_pos hrow]
            have hcol : q.col ≠ p.col := by
              intro hcol
              exact hq (by cases q; cases p; cases hrow; cases hcol; rfl)
            by_cases hle : p.col ≤ q.col
            · obtain ⟨k, hk⟩ : ∃ k, q.col - p.col = k + 1 := ⟨q.col - p.col - 1, by omega⟩
              have hk' : q.col - (p.col + 1) = k := by omega
              rw [if_pos (by omega), if_pos hle, hk, hk', List.getElem?_cons_succ]
            · rw [if_neg (by omega), if_neg hle]
          · rw [if_neg hrow, if_neg hrow]

/-- **Both ways of reading agree** on a text that is read from its beginning. -/
theorem charFrom?_origin (cs : List Char) (q : Position) :
    charFrom? .origin cs q = charAt? cs q := by
  obtain ⟨first, others, hlines⟩ : ∃ first others, cs.splitOn '\n' = first :: others :=
    List.exists_cons_of_ne_nil (List.splitOnP_ne_nil _ _)
  rw [charFrom?_of_lines hlines]
  rcases q with ⟨_ | row, _ | col⟩
  · simp [charAt?, Position.origin]
  · simp [charAt?, Position.origin]
  · simp [charAt?, Position.origin]
  · cases row <;> simp [charAt?, hlines, Position.origin]

/-! ## Pages -/

/-- A page: a character in every row and column. -/
abbrev Page := Position → Char

namespace Page

/-- Nothing but spaces. -/
def blank : Page := fun _ => ' '

/-- How a character looks: all white space is blank. -/
def shown (c : Char) : Char :=
  if isBlank c then ' ' else c

/-- **What is seen of a text** on a page, its characters in their rows and columns, blank elsewhere. -/
def ofText (cs : List Char) : Page :=
  fun q => ((charAt? cs q).map shown).getD ' '

/-- A page with a text written on it, from a place to the right. -/
def write (page : Page) (p : Position) : List Char → Page
  | [] => page
  | c :: cs => write (Function.update page p c) ⟨p.row, p.col + 1⟩ cs

/-- **A blank page with tokens written on it**, the text of each at its row and column. -/
def ofTokens (ts : List Token) : Page :=
  ts.foldl (fun page t => page.write t.position t.value.toList) blank

/-- A page with texts written on it, each at its place. -/
def writeAll (page : Page) (texts : List (String × Position)) : Page :=
  texts.foldl (fun page t => page.write t.2 t.1.toList) page

variable {page : Page}

/-- Writing a text puts its characters where they are read; the rest of the page stays as it is. -/
theorem write_apply (page : Page) (p : Position) (hblank : ∀ c ∈ cs, isBlank c = false) (q : Position) :
    page.write p cs q = ((charFrom? p cs q).map shown).getD (page q) := by
  induction cs generalizing page p with
  | nil => rfl
  | cons c cs ih =>
      have hc : isBlank c = false := hblank c List.mem_cons_self
      have hnewline : c ≠ '\n' := by
        rintro rfl
        rw [isBlank_newline] at hc
        cases hc
      have hnext : p.next c = ⟨p.row, p.col + 1⟩ := if_neg hnewline
      rw [write, ih _ _ fun d hd => hblank d (List.mem_cons_of_mem _ hd), charFrom?, hnext]
      by_cases hq : q = p
      · subst hq
        rw [charFrom?_of_lt (hnext ▸ Position.lt_next q c)]
        simp [hnewline, shown, hc]
      · simp [hq]

/-- **Writing the lexemes of a text shows the text**, on a page that is blank from where the text begins:
    what is white space in the text was blank before. -/
theorem writeAll_lexemesFrom (p : Cursor) (cs : List Char)
    (hpage : ∀ q, p.position ≤ q → page q = ' ') (q : Position) :
    page.writeAll ((lexemesFrom p cs).map fun l => (l.text, l.start.position)) q =
      ((charFrom? p.position cs q).map shown).getD (page q) := by
  fun_induction lexemesFrom p cs generalizing page with
  | case1 => rfl
  | case2 p c cs hblank ih =>
      have hlater : ∀ q, (p.next c).position ≤ q → page q = ' ' := fun q hq =>
        hpage q (Position.le_trans (Position.le_of_lt (Position.lt_next _ c)) hq)
      rw [ih hlater, charFrom?]
      split
      next hq =>
        -- White space looks like the page did.
        have hhere : charFrom? (p.next c).position cs q = none :=
          charFrom?_of_lt (hq.1 ▸ Position.lt_next p.position c) cs
        rw [hhere, hq.1]
        simp [shown, hblank, hpage p.position (Position.le_refl _)]
      next => rfl
  | case3 p c cs hblank shape text =>
      rename_i ih
      have hvisible : ∀ d ∈ text, isBlank d = false :=
        isBlank_eq_false_of_mem_munch (Bool.eq_false_iff.mpr hblank)
      have htext : c :: cs = text ++ (munch c cs).2.2 :=
        congrArg (c :: ·) (munch_append c cs).symm
      have hwrite (q : Position) := write_apply page p.position hvisible q
      have hlater : ∀ q, (p.advance text).position ≤ q → page.write p.position text q = ' ' := by
        intro q hq
        rw [hwrite q]
        cases hchar : charFrom? p.position text q with
        | none => exact hpage q (Position.le_trans (Cursor.position_le_advance p text) hq)
        | some d =>
            have hlt := Position.lt_of_lt_of_le (lt_advance_of_charFrom? hchar) hq
            exact absurd rfl (Position.ne_of_lt hlt)
      rw [List.map_cons, htext, charFrom?_append]
      show writeAll (page.write p.position (String.ofList text).toList) _ q = _
      rw [String.toList_ofList, ih hlater, hwrite q]
      cases hchar : charFrom? p.position text q with
      | none => rfl
      | some d => rw [charFrom?_of_lt (lt_advance_of_charFrom? hchar)]; rfl

end Page

/-! ## Lexemes one after the other -/

/-- Lexemes begin where their text does, or later. -/
theorem le_start_of_mem {l : Lexeme} (h : l ∈ lexemesFrom p cs) : p.position ≤ l.start.position := by
  obtain ⟨ls, ms, hsplit⟩ := List.append_of_mem h
  obtain ⟨before, after, -, hstart, -⟩ := lexemesFrom_split hsplit
  rw [hstart]
  exact Cursor.position_le_advance p before

/-- **Each lexeme ends before the next begins**, or right there. -/
theorem lexemesFrom_pairwise (p : Cursor) (cs : List Char) :
    (lexemesFrom p cs).Pairwise fun l m => l.endPosition ≤ m.start.position := by
  fun_induction lexemesFrom p cs with
  | case1 => exact List.Pairwise.nil
  | case2 p c cs hblank ih => exact ih
  | case3 p c cs hblank shape text =>
      rename_i ih
      refine List.pairwise_cons.mpr ⟨fun m hm => ?_, ih⟩
      have hnewline : '\n' ∉ text := by
        intro hmem
        have hvisible := isBlank_eq_false_of_mem_munch (Bool.eq_false_iff.mpr hblank) _ hmem
        rw [isBlank_newline] at hvisible
        cases hvisible
      have hend : Lexeme.endPosition ⟨shape, String.ofList text, p⟩ = (p.advance text).position := by
        rw [Cursor.position_advance_of_noNewline p hnewline, Lexeme.endPosition, String.length_ofList]
      rw [hend]
      exact le_start_of_mem hm

/-! ## Tokens -/

variable {source : String} {ts : List Token} {t : Token}

/-- Tokens take some room. -/
theorem position_lt_endPosition (h : tokens source = .ok ts) (ht : t ∈ ts) :
    t.position < t.endPosition := by
  obtain ⟨i, hi⟩ := List.mem_iff_getElem?.mp ht
  obtain ⟨l, hl, htext, -⟩ := exists_lexeme_of_getElem? h hi
  have hlength : 0 < t.value.length := by
    rw [htext, ← String.length_toList]
    exact List.length_pos_iff.mpr (toList_ne_nil_of_mem (List.mem_of_getElem? hl))
  exact .inr ⟨rfl, Nat.lt_add_of_pos_right hlength⟩

/-- **Each token ends before the next begins**, or right there. -/
theorem tokens_pairwise (h : tokens source = .ok ts) :
    ts.Pairwise fun t u => t.endPosition ≤ u.position := by
  -- Both ends are told by the text and the place of a token, which are those of a lexeme.
  let ends (a b : String × Position) : Prop := (⟨a.2.row, a.2.col + a.1.length⟩ : Position) ≤ b.2
  have hlexemes : ((lexemes source).map fun l => (l.text, l.start.position)).Pairwise ends :=
    List.pairwise_map.mpr (lexemesFrom_pairwise .origin source.toList)
  rw [← tokensFrom_places h] at hlexemes
  exact List.pairwise_map.mp hlexemes

/-- **The place of a token** of a source: right before its text, the source has as many line feeds as there
    are rows above, and as many characters on the row as there are columns to the left. The index of
    lines tells the same place of the first byte of the lexeme. -/
def Token.StandsFor (source : String) (l : Lexeme) (t : Token) : Prop :=
  t.value = l.text ∧ ∃ before rest, source.toList = before ++ t.value.toList ++ rest ∧
    l.start.offset = String.utf8Len before ∧
    t.position.row = 1 + before.count '\n' ∧ t.position.col = 1 + (lastLine before).length ∧
    (LineIndex.ofText source.toList).position l.start.offset = t.position

/-- A token in the place of a lexeme stands for it. -/
theorem standsFor_of_place {l : Lexeme} (hl : l ∈ lexemes source) (htext : t.value = l.text)
    (hplace : t.position = l.start.position) : t.StandsFor source l := by
  obtain ⟨ls, ms, hsplit⟩ := List.append_of_mem hl
  obtain ⟨before, rest, hsource, hstart, -⟩ := lexemesFrom_split hsplit
  have hafter : t.position = .after before := by rw [hplace, hstart, position_advance]
  have hoffset : l.start.offset = String.utf8Len before := by
    rw [hstart, Cursor.offset_advance_origin]
  refine ⟨htext, before, rest, htext ▸ hsource, hoffset, ?_, ?_, ?_⟩
  · rw [hafter, Nat.add_comm]
    rfl
  · rw [hafter, Nat.add_comm]
    rfl
  · rw [hsource, List.append_assoc, hoffset, LineIndex.position_ofText, hafter]

/-- Tokens on a page show the source. -/
theorem ofTokens_eq_ofText (h : tokens source = .ok ts) :
    Page.ofTokens ts = Page.ofText source.toList := by
  have hplaces : Page.ofTokens ts = Page.blank.writeAll (ts.map fun t => (t.value, t.position)) := by
    rw [Page.writeAll, List.foldl_map]
    rfl
  funext q
  rw [hplaces, tokensFrom_places h]
  show Page.writeAll Page.blank _ q = ((charAt? source.toList q).map Page.shown).getD ' '
  rw [← charFrom?_origin]
  exact Page.writeAll_lexemesFrom .origin source.toList (fun _ _ => rfl) q

/-- **The places of tokens are exact and lose nothing.** Each token stands for the lexeme of its number, and
    its row and column count what is before it. Later tokens have later places, and do not begin on the
    same row before an earlier one has ended. And the tokens of a source, each written at its place on a
    blank page, show the source: what is not in a token is white space, and nothing is moved. -/
theorem tokens_exact (h : tokens source = .ok ts) :
    (∀ (i : Nat) (t : Token), ts[i]? = some t →
      ∃ l, (lexemes source)[i]? = some l ∧ t.StandsFor source l) ∧
    (ts.Pairwise fun t u => t.position < u.position ∧
      (t.position.row = u.position.row → t.endCol ≤ u.position.col)) ∧
    Page.ofTokens ts = Page.ofText source.toList := by
  refine ⟨fun i t ht => ?_, ?_, ofTokens_eq_ofText h⟩
  · obtain ⟨l, hl, htext, hposition⟩ := exists_lexeme_of_getElem? h ht
    exact ⟨l, hl, standsFor_of_place (List.mem_of_getElem? hl) htext hposition⟩
  · refine (tokens_pairwise h).imp_of_mem fun {t u} ht _ hends => ⟨?_, fun hrow => ?_⟩
    · exact Position.lt_of_lt_of_le (position_lt_endPosition h ht) hends
    · have hle := Position.le_iff.mp hends
      have hsame : t.endPosition.row = u.position.row := hrow
      have hcol : t.endPosition.col ≤ u.position.col := by omega
      exact hcol

/-- A wide blank, a tab, a return and an empty row: each is one column or one row of white space, and the
    last token stands on the third row. -/
theorem tokens_exact_blanks :
    let source := "END\u3000BEGIN\t\r\n\n  9x"
    let ts : List Token := [⟨.endMark, "END", ⟨1, 1⟩⟩, ⟨.beginMark, "BEGIN", ⟨1, 5⟩⟩,
      ⟨.identifier, "9", ⟨3, 3⟩⟩, ⟨.identifier, "x", ⟨3, 4⟩⟩]
    tokens source = .ok ts ∧
      (∃ l, (lexemes source)[3]? = some l ∧ Token.StandsFor source l ⟨.identifier, "x", ⟨3, 4⟩⟩) ∧
      (⟨3, 3⟩ : Position) < ⟨3, 4⟩ ∧ Page.ofTokens ts = Page.ofText source.toList := by
  intro source ts
  have htokens : tokens source = .ok ts := by decide +kernel
  obtain ⟨hstand, hpairs, hpage⟩ := tokens_exact htokens
  have hlast := (List.pairwise_cons.mp hpairs.of_cons.of_cons).1 ⟨.identifier, "x", ⟨3, 4⟩⟩
    List.mem_cons_self
  exact ⟨htokens, hstand 3 _ rfl, hlast.1, hpage⟩

end StateDiagram

import StateDiagram.Token.Lexer
import StateDiagram.Proofs.Munch

/-!
# `Proofs.Naming` — the texts of tokens

What a token can be spelled like, told by its category alone: a category of names stands for any
legal name, each other one for its reserved spellings. Whatever source a token comes from, its text is
of this kind; and a text of this kind, with white space after it, is read back as one lexeme.

## Contents

* `keywords`, `IsWord`, `IsLegal` — the names that a writer may choose;
* `IsLegal.reservedKind?_eq_none` — no legal name is reserved;
* `IsCut`, `isCut_of_mem_lexemesFrom` — what a source is cut into;
* `Token.IsSpelled`, `isSpelled_of_mem_tokens` — the text of a token fits its category;
* `exists_of_tokensFrom_cons`, `tokensFrom_places` — tokens, one for each lexeme, in its place;
* `Classified`, `exists_tokensFrom` — texts with given categories become tokens of these;
* `Separable`, `map_text_lexemesFrom_spaced` — texts that white space keeps apart are read back;
* `Token.IsSpelled.separable` — the texts of tokens are of this kind.
-/

namespace StateDiagram

/-! ## Legal names -/

/-- The reserved spellings that look like names. -/
def keywords : List String :=
  ["BEGIN", "END", "def", "START", "ACCEPT", "STATE", "STATE_DEF", "SELF"]

/-- A letter or an underscore, and then letters, digits and underscores. -/
def IsWord (name : String) : Prop :=
  ∃ c cs, name.toList = c :: cs ∧ isNameStart c = true ∧ ∀ d ∈ cs, isNameChar d = true

/-- **The names that a writer may choose**: words, and single digits, unless they are reserved. -/
def IsLegal (name : String) : Prop :=
  ((∃ d : Char, d.isDigit = true ∧ name = String.singleton d) ∨ IsWord name) ∧ name ∉ keywords

/-- A legal name is a name for classification. -/
theorem IsLegal.isNameText {name : String} (h : IsLegal name) : isNameText name = true := by
  unfold StateDiagram.isNameText
  rcases h.1 with ⟨d, hd, rfl⟩ | ⟨c, cs, hname, hc, hcs⟩
  · simp [isNameChar_iff, hd]
  · rw [hname]
    simpa [isNameChar_of_isNameStart hc] using hcs

/-- What is true of every entry of the table of reserved spellings is true of each look-up. -/
theorem mem_reserved {text : String} {kind : Kind} (h : reservedKind? text = some kind) :
    (text, kind) ∈ reserved := by
  obtain ⟨before, after, hsplit, -⟩ := List.lookup_eq_some_iff.mp h
  rw [hsplit]
  simp

/-- Reserved spellings that look like names are keywords. -/
theorem mem_keywords_of_reserved {text : String} {kind : Kind}
    (h : reservedKind? text = some kind) : text ∈ keywords ∨ isNameText text = false :=
  (by decide : ∀ p ∈ reserved, p.1 ∈ keywords ∨ isNameText p.1 = false) _ (mem_reserved h)

/-- A reserved spelling stands for no category of names. -/
theorem isName_of_reserved {text : String} {kind : Kind} (h : reservedKind? text = some kind) :
    kind.isName = false :=
  (by decide : ∀ p ∈ reserved, p.2.isName = false) _ (mem_reserved h)

/-- Every keyword is reserved. -/
theorem reservedKind?_isSome_of_mem_keywords {text : String} (h : text ∈ keywords) :
    (reservedKind? text).isSome = true :=
  (by decide : ∀ text ∈ keywords, (reservedKind? text).isSome = true) _ h

/-- No legal name is reserved. -/
theorem IsLegal.reservedKind?_eq_none {name : String} (h : IsLegal name) :
    reservedKind? name = none := by
  cases hk : reservedKind? name with
  | none => rfl
  | some kind =>
      rcases mem_keywords_of_reserved hk with hmem | htext
      · exact absurd hmem h.2
      · rw [h.isNameText] at htext
        exact nomatch htext

/-! ## The tokens of a source -/

/-- The texts that a source is cut into: words, single characters and the arrow. -/
def IsCut (text : String) : Prop :=
  IsWord text ∨ (∃ c, text = String.singleton c) ∨ text = "->"

/-- What spells a shape is a word, a single character or the arrow. -/
theorem Shape.Spells.isCut {shape : Shape} {cs : List Char} (h : shape.Spells cs) :
    IsCut (String.ofList cs) := by
  cases h with
  | arrow => exact .inr (.inr rfl)
  | word hc hcs => exact .inl ⟨_, _, String.toList_ofList, hc, hcs⟩
  | leftBrace => exact .inr (.inl ⟨'\x7b', rfl⟩)
  | rightBrace => exact .inr (.inl ⟨'\x7d', rfl⟩)
  | @other c => exact .inr (.inl ⟨c, rfl⟩)

theorem isCut_of_mem_lexemesFrom {p : Cursor} {cs : List Char} {l : Lexeme}
    (h : l ∈ lexemesFrom p cs) : IsCut l.text := by
  fun_induction lexemesFrom p cs with
  | case1 => exact nomatch h
  | case2 p c cs hblank ih => exact ih h
  | case3 p c cs hblank shape text ih =>
      rcases List.mem_cons.mp h with rfl | h
      · exact (spells_munch c cs).1.isCut
      · exact ih h

/-- A cut that looks like a name and is not reserved is a legal name. -/
theorem IsCut.isLegal {text : String} (h : IsCut text) (hname : isNameText text = true)
    (hfree : reservedKind? text = none) : IsLegal text := by
  refine ⟨?_, ?_⟩
  -- Of the single characters only letters, underscores and digits look like names.
  · rcases h with hword | ⟨c, rfl⟩ | rfl
    · exact .inr hword
    · simp only [isNameText, String.toList_singleton, List.isEmpty_cons, Bool.not_false,
        Bool.true_and, List.all_cons, List.all_nil, Bool.and_true, isNameChar_iff] at hname
      rcases hname with hstart | hdigit
      · exact .inr ⟨c, [], String.toList_singleton c, hstart, by simp⟩
      · exact .inl ⟨c, hdigit, rfl⟩
    · exact absurd hname (by decide)
  · intro hmem
    have hsome := reservedKind?_isSome_of_mem_keywords hmem
    rw [hfree] at hsome
    exact nomatch hsome

/-- **The text of a token fits its category**: a legal name for a name, a reserved spelling else. -/
structure Token.IsSpelled (t : Token) : Prop where
  isLegal : t.kind.isName = true → IsLegal t.value
  reservedKind?_eq : t.kind.isName = false → reservedKind? t.value = some t.kind

theorem isSpelled_of_classify {ctx : Context} {t : Token} (hcut : IsCut t.value)
    (h : classify ctx t.value = some t.kind) : t.IsSpelled := by
  unfold classify at h
  split at h
  next kind hk =>
    obtain rfl := Option.some.inj h
    refine ⟨fun hname => ?_, fun _ => hk⟩
    rw [isName_of_reserved hk] at hname
    exact nomatch hname
  next hfree =>
    split at h
    next hname =>
      refine ⟨fun _ => hcut.isLegal hname hfree, fun hk => ?_⟩
      have hkind := Option.some.inj h
      rw [← hkind] at hk
      split at hk <;> exact nomatch hk
    next => exact nomatch h

variable {ctx : Context} {ls : List Lexeme} {ts us : List Token}

/-- The categories of tokens are those that classification gives their texts, one after the other. -/
def Classified : Context → List Token → Prop
  | _, [] => True
  | ctx, t :: ts =>
    classify (ctx.meet t.value) t.value = some t.kind ∧
      Classified ((ctx.meet t.value).follow t.kind) ts

/-- A lexeme with a category becomes a token, and lexing goes on after it. -/
theorem tokensFrom_cons {l : Lexeme} {kind : Kind}
    (h : classify (ctx.meet l.text) l.text = some kind) :
    tokensFrom ctx (l :: ls) = (tokensFrom ((ctx.meet l.text).follow kind) ls).map
      (⟨kind, l.text, l.start.position⟩ :: ·) := by
  simp only [tokensFrom, h]

/-- **The tokens of lexemes** are that of the first, in the category that classification gives it, and
    those of the others. -/
theorem exists_of_tokensFrom_cons {l : Lexeme} (h : tokensFrom ctx (l :: ls) = .ok ts) :
    ∃ kind us, classify (ctx.meet l.text) l.text = some kind ∧
      tokensFrom ((ctx.meet l.text).follow kind) ls = .ok us ∧
      ts = ⟨kind, l.text, l.start.position⟩ :: us := by
  cases hkind : classify (ctx.meet l.text) l.text with
  | none =>
      simp only [tokensFrom, hkind] at h
      cases h
  | some kind =>
      rw [tokensFrom_cons hkind] at h
      cases hrest : tokensFrom ((ctx.meet l.text).follow kind) ls with
      | error e =>
          rw [hrest] at h
          cases h
      | ok us =>
          rw [hrest] at h
          exact ⟨kind, us, rfl, hrest, (Except.ok.inj h).symm⟩

/-- Classification gave tokens their categories. -/
theorem classified_of_tokensFrom (h : tokensFrom ctx ls = .ok ts) : Classified ctx ts := by
  induction ls generalizing ctx ts with
  | nil =>
      obtain rfl := Except.ok.inj h
      trivial
  | cons l ls ih =>
      obtain ⟨kind, us, hkind, hrest, rfl⟩ := exists_of_tokensFrom_cons h
      exact ⟨hkind, ih hrest⟩

/-- **Tokens come from lexemes** of the same texts, and stand where these do. -/
theorem tokensFrom_places (h : tokensFrom ctx ls = .ok ts) :
    ts.map (fun t => (t.value, t.position)) = ls.map (fun l => (l.text, l.start.position)) := by
  induction ls generalizing ctx ts with
  | nil =>
      obtain rfl := Except.ok.inj h
      rfl
  | cons l ls ih =>
      obtain ⟨kind, us, -, hrest, rfl⟩ := exists_of_tokensFrom_cons h
      exact congrArg (_ :: ·) (ih hrest)

theorem tokensFrom_values (h : tokensFrom ctx ls = .ok ts) :
    ts.map Token.value = ls.map Lexeme.text := by
  have hvalues := congrArg (List.map Prod.fst) (tokensFrom_places h)
  rwa [List.map_map, List.map_map] at hvalues

/-- Lexemes whose texts are classified in a given way become tokens of these categories and texts. -/
theorem exists_tokensFrom (h : Classified ctx us)
    (htexts : ls.map Lexeme.text = us.map Token.value) :
    ∃ ts, tokensFrom ctx ls = .ok ts ∧ ts.map Token.kind = us.map Token.kind ∧
      ts.map Token.value = us.map Token.value := by
  induction us generalizing ctx ls with
  | nil =>
      obtain rfl := List.map_eq_nil_iff.mp htexts
      exact ⟨[], rfl, rfl, rfl⟩
  | cons u us ih =>
      obtain ⟨l, ls, rfl, hl, hls⟩ := List.map_eq_cons_iff.mp htexts
      obtain ⟨ts, hts, hkinds, hvalues⟩ := ih h.2 hls
      refine ⟨⟨u.kind, l.text, l.start.position⟩ :: ts, ?_, ?_, ?_⟩
      · rw [tokensFrom_cons (hl ▸ h.1), hl, hts]
        rfl
      · rw [List.map_cons, List.map_cons, hkinds]
      · rw [List.map_cons, List.map_cons, hvalues, hl]

/-- The tokens among classified ones whose texts are cuts are spelled as their categories say. -/
theorem Classified.isSpelled (h : Classified ctx ts) (hcuts : ∀ t ∈ ts, IsCut t.value) :
    ∀ t ∈ ts, t.IsSpelled := by
  induction ts generalizing ctx with
  | nil => exact nofun
  | cons u us ih =>
      intro t ht
      rcases List.mem_cons.mp ht with rfl | ht
      · exact isSpelled_of_classify (hcuts _ List.mem_cons_self) h.1
      · exact ih h.2 (fun t ht => hcuts t (List.mem_cons_of_mem _ ht)) t ht

/-- **The tokens of a source are spelled as their categories say.** -/
theorem isSpelled_of_mem_tokens {source : String} (h : tokens source = .ok ts) :
    ∀ t ∈ ts, t.IsSpelled := by
  apply (classified_of_tokensFrom h).isSpelled
  intro t ht
  have hmem : t.value ∈ (lexemes source).map Lexeme.text :=
    tokensFrom_values h ▸ List.mem_map_of_mem ht
  obtain ⟨l, hl, htext⟩ := List.mem_map.mp hmem
  exact htext ▸ isCut_of_mem_lexemesFrom hl

/-! ## Texts that white space keeps apart -/

/-- A text that is one lexeme wherever a space follows it. -/
def Separable (text : String) : Prop :=
  ∃ c cs, text.toList = c :: cs ∧ isBlank c = false ∧
    ∀ rest, (munch c (cs ++ ' ' :: rest)).2 = (cs, ' ' :: rest)

/-- Texts one after the other, with a space after each. -/
def spaced (texts : List String) : List Char :=
  texts.flatMap fun text => text.toList ++ [' ']

/-- **Texts with a space after each are read back** as they are. -/
theorem map_text_lexemesFrom_spaced {texts : List String} (h : ∀ text ∈ texts, Separable text)
    (p : Cursor) : (lexemesFrom p (spaced texts)).map Lexeme.text = texts := by
  induction texts generalizing p with
  | nil => exact congrArg (List.map Lexeme.text) (lexemesFrom_nil p)
  | cons text texts ih =>
      obtain ⟨c, cs, htext, hblank, hmunch⟩ := h text List.mem_cons_self
      have hsplit : spaced (text :: texts) = c :: (cs ++ ' ' :: spaced texts) := by
        simp [spaced, htext]
      rw [hsplit, lexemesFrom, if_neg (by simp [hblank]), List.map_cons, hmunch,
        lexemesFrom_blank (by decide), ih (fun text ht => h text (List.mem_cons_of_mem _ ht)),
        ← htext, String.ofList_toList]

/-- **A text that spells a shape is separable**, as no text goes on with white space. -/
theorem Shape.Spells.separable {shape : Shape} {c : Char} {cs : List Char} {text : String}
    (h : shape.Spells (c :: cs)) (htext : text.toList = c :: cs) (hblank : isBlank c = false) :
    Separable text := by
  refine ⟨c, cs, htext, hblank, fun rest => ?_⟩
  rw [h.munch_eq (Shape.not_goesOn_blank (by decide))]

/-- A word is separable. -/
theorem IsWord.separable {text : String} (h : IsWord text) : Separable text := by
  obtain ⟨c, cs, htext, hc, hcs⟩ := h
  have hblank := isBlank_eq_false_of_isNameChar (isNameChar_of_isNameStart hc)
  exact (Shape.Spells.word hc hcs).separable htext hblank

/-- A single character that starts no word is separable, even the first of an arrow. -/
theorem separable_singleton {c : Char} (hblank : isBlank c = false)
    (hstart : isNameStart c = false) : Separable (String.singleton c) := by
  have hspells : ∃ shape : Shape, shape.Spells [c] := by
    by_cases hopen : c = '\x7b'
    · exact ⟨.leftBrace, hopen ▸ .leftBrace⟩
    by_cases hclose : c = '\x7d'
    · exact ⟨.rightBrace, hclose ▸ .rightBrace⟩
    · exact ⟨.other, .other hopen hclose hstart⟩
  obtain ⟨shape, hshape⟩ := hspells
  exact hshape.separable (String.toList_singleton c) hblank

/-- The arrow is separable. -/
theorem separable_arrow : Separable "->" :=
  Shape.Spells.arrow.separable rfl (by decide)

/-- Every reserved spelling is a word, a single character or the arrow. -/
theorem separable_of_reserved {text : String} {kind : Kind} (h : reservedKind? text = some kind) :
    Separable text := by
  have htable : ∀ p ∈ reserved,
      (p.1.toList.head?.any isNameStart = true ∧ p.1.toList.tail.all isNameChar = true) ∨
      (p.1.toList.length = 1 ∧ p.1.toList.all (fun c => !isBlank c && !isNameStart c) = true) ∨
      p.1 = "->" := by decide
  rcases htable _ (mem_reserved h) with ⟨hhead, htail⟩ | ⟨hone, hchar⟩ | rfl
  · obtain ⟨c, hc, hstart⟩ := (Option.any_eq_true _ _).mp hhead
    obtain ⟨cs, hcs⟩ := List.head?_eq_some_iff.mp hc
    rw [hcs, List.tail_cons, List.all_eq_true] at htail
    exact IsWord.separable ⟨c, cs, hcs, hstart, htail⟩
  · obtain ⟨c, hc⟩ := List.length_eq_one_iff.mp hone
    have htext : text = String.singleton c := by
      rw [← String.ofList_toList (s := text), hc]
      rfl
    simp only [hc, List.all_cons, List.all_nil, Bool.and_true, Bool.and_eq_true,
      Bool.not_eq_true'] at hchar
    rw [htext]
    exact separable_singleton hchar.1 hchar.2
  · exact separable_arrow

/-- **The text of a token that is spelled as its category says is separable.** -/
theorem Token.IsSpelled.separable {t : Token} (h : t.IsSpelled) : Separable t.value := by
  cases hname : t.kind.isName with
  | false => exact separable_of_reserved (h.reservedKind?_eq hname)
  | true =>
      rcases (h.isLegal hname).1 with ⟨d, hd, htext⟩ | hword
      · rw [htext]
        have hblank := isBlank_eq_false_of_isNameChar (isNameChar_iff.mpr (.inr hd))
        cases hstart : isNameStart d with
        | false => exact separable_singleton hblank hstart
        | true => exact IsWord.separable ⟨d, [], String.toList_singleton d, hstart, by simp⟩
      · exact hword.separable

end StateDiagram

import StateDiagram.Proofs.Spelling

/-!
# `Proofs.Normalized` — what a program keeps of its source

Of the lexemes of a source its program drops two things only: a comma before the bracket that ends a
list, and which of its two keywords a state block was written with. Without these the lexemes are those
of the program's own spelling, so two sources have the same program exactly if their lexemes are the
same up to the two.

## Contents

* `mainKeyword`, `normalized` — lexemes without what a program drops;
* `normalized_cons`, `normalized_comma`, `normalized_trailing` — what becomes of a lexeme;
* `Elements.normalized_eq`, `Members.normalized_eq`, `Derives.normalized_eq` — what is left of a phrase
  is its spelling;
* `normalized_lexemeTexts` — what is left of a source is the spelling of its program;
* `program_eq_iff_normalized` — so programs and normalized lexemes tell sources apart alike.
-/

namespace StateDiagram

/-! ## Lexemes without what a program drops -/

/-- The keyword of a state block that is written out, for either of the two. -/
def mainKeyword (text : String) : String :=
  if text = "STATE_DEF" then "STATE" else text

/-- **Lexemes without what a program drops**: no comma right before a closing bracket, and one keyword
    for state blocks. -/
def normalized : List String → List String
  | [] => []
  | text :: texts =>
    if text = "," ∧ texts.head? = some "]" then normalized texts
    else mainKeyword text :: normalized texts

/-- The texts of a source's lexemes. -/
def lexemeTexts (source : String) : List String :=
  (lexemes source).map Lexeme.text

variable {ts : List Token} {t : Token} {texts names : List String} {text : String}

@[simp] theorem normalized_nil : normalized [] = [] := rfl

/-- Only commas are ever dropped. -/
theorem normalized_cons (h : text ≠ ",") :
    normalized (text :: texts) = mainKeyword text :: normalized texts := by
  rw [normalized, if_neg (fun hdrop => h hdrop.1)]

/-- A comma stays where no bracket closes after it. -/
theorem normalized_comma (h : texts.head? ≠ some "]") :
    normalized ("," :: texts) = "," :: normalized texts := by
  rw [normalized, if_neg (fun hdrop => h hdrop.2)]
  rfl

/-- A comma goes where a bracket closes after it. -/
theorem normalized_trailing : normalized ("," :: "]" :: texts) = normalized ("]" :: texts) := by
  rw [normalized, if_pos ⟨rfl, rfl⟩]

/-! ## Tokens -/

/-- A category that is no name and no comma leaves its spelling. -/
theorem Token.IsSpelled.normalized_fixed {k : Kind} (h : t.IsSpelled) (hk : t.kind = k)
    (hname : k.isName = false) (hcomma : k ≠ .comma) :
    normalized (t.value :: texts) = (Token.fixed k).value :: normalized texts := by
  subst hk
  have hmem := mem_reserved (h.reservedKind?_eq hname)
  have htable : ∀ p ∈ reserved, p.2 ≠ .comma → p.1 ≠ "," ∧ mainKeyword p.1 = p.2.spelling := by
    decide
  obtain ⟨hne, hmain⟩ := htable _ hmem hcomma
  rw [normalized_cons hne, hmain]
  rfl

/-- A name stays as it is. -/
theorem Token.IsSpelled.normalized_name {k : Kind} (h : t.IsSpelled) (hk : t.kind = k)
    (hname : k.isName = true) : normalized (t.value :: texts) = t.value :: normalized texts := by
  have hlegal : IsLegal t.value := h.isLegal_of hk hname
  have hcomma : t.value ≠ "," := by
    intro heq
    have htext := hlegal.isNameText
    rw [heq] at htext
    exact absurd htext (by decide)
  have hkeyword : t.value ≠ "STATE_DEF" := by
    intro heq
    exact hlegal.2 (heq ▸ by decide)
  rw [normalized_cons hcomma, mainKeyword, if_neg hkeyword]

/-- So does a member of a list, and it closes no bracket. -/
theorem Token.IsSpelled.normalized_member (h : t.IsSpelled) (hk : IsTarget t.kind) :
    (∀ texts, normalized (t.value :: texts) = t.value :: normalized texts) ∧ t.value ≠ "]" := by
  refine ⟨fun texts => ?_, ?_⟩
  · rcases hk with hk | hk
    · exact h.normalized_name hk rfl
    · have hself : t.value = loopTarget := h.value_of hk rfl (by decide)
      rw [h.normalized_fixed hk rfl (by decide), hself]
      rfl
  · intro heq
    have hbracket := h.value_eq_bracket_iff.2.mp heq
    rcases hk with hk | hk <;> rw [hk] at hbracket <;> exact nomatch hbracket

/-- A comma has one spelling. -/
theorem Token.IsSpelled.value_of_comma (h : t.IsSpelled) (hk : t.kind = .comma) :
    t.value = "," :=
  h.value_of hk rfl (by decide)

/-! ## Phrases -/

/-- The texts of a list of names: these, with a comma between each two. -/
theorem map_value_listed (kindOf : String → Kind) (names : List String) :
    (listed kindOf names).map Token.value = names.intersperse "," := by
  induction names with
  | nil => rfl
  | cons name names ih =>
      cases names with
      | nil => rfl
      | cons next names => exact congrArg (fun texts => name :: "," :: texts) ih

/-- The names of a list and the commas between them stay. -/
theorem Elements.normalized_eq {member : Kind → Prop} (h : Elements member ts names)
    (hm : ∀ k, member k → IsTarget k) (hts : ∀ t ∈ ts, t.IsSpelled) (rest : List String) :
    normalized (ts.map Token.value ++ rest) = names.intersperse "," ++ normalized rest ∧
      (ts.map Token.value).head? ≠ some "]" := by
  induction h with
  | last ht =>
      rw [List.forall_mem_singleton] at hts
      obtain ⟨hstays, hne⟩ := hts.normalized_member (hm _ ht)
      exact ⟨hstays rest, fun heq => hne (Option.some.inj heq)⟩
  | @more t c ts names ht hc hmore ih =>
      simp only [List.forall_mem_cons] at hts
      obtain ⟨hspelled, hspelled', hrest⟩ := hts
      obtain ⟨ih, hhead⟩ := ih hrest
      obtain ⟨hstays, hne⟩ := hspelled.normalized_member (hm _ ht)
      refine ⟨?_, fun heq => hne (Option.some.inj heq)⟩
      -- There is one more name after the comma, so no bracket closes there.
      have hnext : (ts.map Token.value ++ rest).head? ≠ some "]" := by
        cases hmore <;> exact hhead
      have hnames : (t.value :: names).intersperse "," =
          t.value :: "," :: names.intersperse "," := by
        cases hmore <;> rfl
      rw [List.map_cons, List.map_cons, List.cons_append, List.cons_append, hstays,
        hspelled'.value_of_comma hc, normalized_comma hnext, ih, hnames]
      rfl

/-- **Of a list its names stay**, with a comma between each two, and the bracket after them. -/
theorem Members.normalized_eq {member : Kind → Prop} {r : Token} (h : Members member ts names)
    (hm : ∀ k, member k → IsTarget k) (hts : ∀ t ∈ ts, t.IsSpelled) (hr : r.IsSpelled)
    (hk : r.kind = .rightBracket) (rest : List String) :
    normalized (ts.map Token.value ++ r.value :: rest) =
      names.intersperse "," ++ (Token.fixed .rightBracket).value :: normalized rest := by
  cases h with
  | empty => exact hr.normalized_fixed hk rfl (by decide)
  | plain he => rw [(he.normalized_eq hm hts _).1, hr.normalized_fixed hk rfl (by decide)]
  | @trailing ts names c he hc =>
      rw [List.forall_mem_append, List.forall_mem_singleton] at hts
      have hbracket : r.value = "]" := hr.value_eq_bracket_iff.2.mpr hk
      rw [List.map_append, List.append_assoc, (he.normalized_eq hm hts.1 _).1]
      show _ ++ normalized (c.value :: r.value :: rest) = _
      rw [hts.2.value_of_comma hc, hbracket, normalized_trailing, ← hbracket,
        hr.normalized_fixed hk rfl (by decide)]

/-- The tokens of a phrase's spelling. -/
def Phrase.spelled : Phrase → List Token
  | one s => s.spelled
  | many ss => StateDiagram.spelled ss

/-- **What is left of a phrase is its spelling.** -/
theorem Derives.normalized_eq {inState : Bool} {phrase : Phrase} (h : Derives inState phrase ts)
    (hts : ∀ t ∈ ts, t.IsSpelled) (rest : List String) :
    normalized (ts.map Token.value ++ rest) =
      phrase.spelled.map Token.value ++ normalized rest := by
  -- No phrase ends with a comma, so what follows it is of no account: it varies.
  induction h generalizing rest with
  | beginMark hk | endMark hk =>
      exact (List.forall_mem_singleton.mp hts).normalized_fixed hk rfl (by decide)
  | machine hkw hname hl _ hr he ih =>
      simp only [List.forall_mem_cons, List.forall_mem_append] at hts
      obtain ⟨skw, sname, sl, sts, sr, se, -⟩ := hts
      simp only [List.map_cons, List.map_append, List.cons_append, List.append_assoc,
        List.map_nil, List.nil_append]
      rw [skw.normalized_fixed hkw rfl (by decide), sname.normalized_name hname rfl,
        sl.normalized_fixed hl rfl (by decide), ih sts, sr.normalized_fixed hr rfl (by decide),
        se.normalized_fixed he rfl (by decide)]
      simp [Phrase.spelled, Statement.spelled, Token.written]
  | stateDef hkw hname ha hl _ hr he ih =>
      simp only [List.forall_mem_cons, List.forall_mem_append] at hts
      obtain ⟨skw, sname, sa, sl, sts, sr, se, -⟩ := hts
      simp only [List.map_cons, List.map_append, List.cons_append, List.append_assoc,
        List.map_nil, List.nil_append]
      rw [skw.normalized_fixed hkw rfl (by decide), sname.normalized_name hname rfl,
        sa.normalized_fixed ha rfl (by decide), sl.normalized_fixed hl rfl (by decide), ih sts,
        sr.normalized_fixed hr rfl (by decide), se.normalized_fixed he rfl (by decide)]
      simp [Phrase.spelled, Statement.spelled, Token.written]
  | start hkw ha hname he =>
      simp only [List.forall_mem_cons] at hts
      obtain ⟨skw, sa, sname, se, -⟩ := hts
      simp only [List.map_cons, List.cons_append, List.map_nil, List.nil_append]
      rw [skw.normalized_fixed hkw rfl (by decide), sa.normalized_fixed ha rfl (by decide),
        sname.normalized_name hname rfl, se.normalized_fixed he rfl (by decide)]
      rfl
  | accept hkw ha hl hlist hr he =>
      simp only [List.forall_mem_cons, List.forall_mem_append] at hts
      obtain ⟨skw, sa, sl, sts, sr, se, -⟩ := hts
      simp only [List.map_cons, List.map_append, List.cons_append, List.append_assoc,
        List.map_nil, List.nil_append]
      rw [skw.normalized_fixed hkw rfl (by decide), sa.normalized_fixed ha rfl (by decide),
        sl.normalized_fixed hl rfl (by decide), hlist.normalized_eq (fun _ => .inl) sts sr hr,
        se.normalized_fixed he rfl (by decide)]
      simp [Phrase.spelled, Statement.spelled, map_value_listed]
  | transition hname ha hl hlist hr he =>
      simp only [List.forall_mem_cons, List.forall_mem_append] at hts
      obtain ⟨sname, sa, sl, sts, sr, se, -⟩ := hts
      simp only [List.map_cons, List.map_append, List.cons_append, List.append_assoc,
        List.map_nil, List.nil_append]
      rw [sname.normalized_name hname rfl, sa.normalized_fixed ha rfl (by decide),
        sl.normalized_fixed hl rfl (by decide), hlist.normalized_eq (fun _ => id) sts sr hr,
        se.normalized_fixed he rfl (by decide)]
      simp [Phrase.spelled, Statement.spelled, map_value_listed, Token.written]
  | nil => rfl
  | cons _ _ ih ih' =>
      rw [List.forall_mem_append] at hts
      rw [List.map_append, List.append_assoc, ih hts.1, ih' hts.2]
      simp [Phrase.spelled, StateDiagram.spelled]

/-! ## Sources -/

variable {source source' : String} {p p' : List Statement}

/-- **What is left of a source is the spelling of its program.** -/
theorem normalized_lexemeTexts (h : program source = .ok p) :
    normalized (lexemeTexts source) = (spelled p).map Token.value := by
  obtain ⟨ts, hts, hparse⟩ := program_eq_ok_iff.mp h
  have hvalues : ts.map Token.value = lexemeTexts source := tokensFrom_values hts
  have hnormal := Derives.normalized_eq (parse_eq_ok_iff.mp hparse).1 (isSpelled_of_mem_tokens hts) []
  rw [List.append_nil, hvalues, normalized_nil, List.append_nil] at hnormal
  exact hnormal

/-- **A program keeps all of its source** but white space, commas before closing brackets and the choice
    of keyword for a state block: two sources with programs have the same one exactly if their lexemes
    are the same without these. -/
theorem program_eq_iff_normalized (source source' : String) (p p' : List Statement)
    (h : program source = .ok p) (h' : program source' = .ok p') :
    p = p' ↔ normalized (lexemeTexts source) = normalized (lexemeTexts source') := by
  rw [normalized_lexemeTexts h, normalized_lexemeTexts h']
  constructor
  · rintro rfl
    rfl
  -- A program is read back from its spelling, so no two programs share one.
  · intro hspelled
    have hp := program_spaced (program_wellFormed h).1 (program_wellFormed h).2
    have hp' := program_spaced (program_wellFormed h').1 (program_wellFormed h').2
    rw [hspelled, hp'] at hp
    exact (Except.ok.inj hp).symm

/-- The other keyword and a last comma more, and the program is the same. -/
theorem program_eq_of_trailing_comma :
    let source := "STATE a -> \x7b go -> [b, SELF] ; \x7d ;"
    let source' := "STATE_DEF a->\x7bgo->[b,SELF,];\x7d;"
    let p : List Statement := [.stateDef "a" [.transition "go" ["b", "SELF"]]]
    program source = .ok p ∧ program source' = .ok p ∧
      normalized (lexemeTexts source) = normalized (lexemeTexts source') := by
  intro source source' p
  have h : program source = .ok p := by decide +kernel
  have h' : program source' = .ok p := by decide +kernel
  exact ⟨h, h', (program_eq_iff_normalized source source' p p h h').mp rfl⟩

end StateDiagram

import StateDiagram.Pipeline
import Mathlib.Data.List.TakeDrop

/-!
# `Proofs.Specs` — the specs that work

A text is understood as a spec if it spells one of those that work, and it spells no two of them. Such a
spec can always be met: what goes wrong with a source is then wrong with the source, never with the format.

Which specs work is told in several places: where texts are understood, in the list of specs, where tokens
are written, and by the registry of formatters. They all agree, and so do the two ways to a source's graphs.

## Contents

* `Spec.ofString_display`, `Spec.ofString_ok_iff` — spelling and understanding specs;
* `mem_availableFormats_iff` — the texts that are understood;
* `exists_process_of_token`, `exists_process_of_ast` — specs that work are met;
* `process_cases` — unless something is wrong with the source;
* `Misfit`, `exists_misfit_iff` — the specs that do not work, and what is said of them;
* `IsRead`, `process_error_iff` — when only the spec can be at fault, and when it is;
* `SpecAgrees`, `specAgrees` — all that is told of a spec agrees.
-/

namespace StateDiagram

variable {spec : Spec} {source text : String} {ts : List Token} {program : List Statement}

/-! ## Spelling -/

/-- A stage is understood by its name. -/
theorem Stage.name_of_ofName? {name : String} {stage : Stage} (h : Stage.ofName? name = some stage) :
    stage.name = name := by
  unfold ofName? at h
  split at h
  case h_3 => cases h
  all_goals
    obtain rfl := Option.some.inj h
    rfl

/-- A format is understood by its name. -/
theorem Format.name_of_ofName? {name : String} {format : Format}
    (h : Format.ofName? name = some format) : format.name = name := by
  unfold ofName? at h
  split at h
  case h_5 => cases h
  all_goals
    obtain rfl := Option.some.inj h
    rfl

namespace Spec

/-- A spec that works is understood as it is spelled. -/
theorem ofString_display (h : spec ∈ available) : ofString spec.display = .ok spec := by
  simp only [available, List.mem_cons, List.not_mem_nil, or_false] at h
  rcases h with rfl | rfl | rfl | rfl | rfl <;> rfl

/-- What is understood is a stage, a dash and a format, and the two go together. -/
theorem display_of_ofString (h : ofString text = .ok spec) : spec ∈ available ∧ spec.display = text := by
  unfold ofString at h
  split at h
  next => cases h
  next before dash after hspan =>
    rw [List.span_eq_takeWhile_dropWhile, Prod.mk.injEq] at hspan
    obtain ⟨hbefore, hafter⟩ := hspan
    split at h
    next => cases h
    next => cases h
    next => cases h
    next => cases h
    next => cases h
    next stage format htree hdot hsimple hstage hformat =>
      obtain rfl := Except.ok.inj h
      constructor
      · cases stage <;> cases format
        case token.treeviz => exact (htree rfl rfl).elim
        case token.dot => exact (hdot rfl rfl).elim
        case ast.simple => exact (hsimple rfl rfl).elim
        all_goals decide
      · have hdash : dash = '-' := by
          have hhead := List.head?_dropWhile_not (· ≠ '-') text.toList
          rw [hafter] at hhead
          simpa using hhead
        subst hdash
        have hsplit : before ++ '-' :: after = text.toList := by
          rw [← hbefore, ← hafter]
          exact List.takeWhile_append_dropWhile
        rw [display, Stage.name_of_ofName? hstage, Format.name_of_ofName? hformat, ← String.toList_inj,
          ← hsplit]
        simp

/-- **A text is understood as a spec** if it spells one that works. -/
theorem ofString_ok_iff : ofString text = .ok spec ↔ spec ∈ available ∧ spec.display = text := by
  constructor
  · exact display_of_ofString
  · rintro ⟨hmem, rfl⟩
    exact ofString_display hmem

end Spec

/-- The usual formatters are all there. -/
theorem exists_serialize (layout : Layout) (program : List Statement) (h : spec ∈ Spec.available)
    (hstage : spec.stage = .ast) :
    ∃ text, (Registry.withLayout layout).serialize program spec.format.name = .ok text := by
  simp only [Spec.available, List.mem_cons, List.not_mem_nil, or_false] at h
  rcases h with rfl | rfl | rfl | rfl | rfl
  · cases hstage
  · cases hstage
  all_goals
    simp [Registry.serialize, Registry.withLayout, Registry.find?_register, Format.name, Formatter.dot,
      Formatter.tree, Formatter.structured]

/-- Tokens can be written in every format that works for them. -/
theorem exists_process_of_token (layout : Layout) (h : spec ∈ Spec.available)
    (hstage : spec.stage = .token) (hts : tokens source = .ok ts) :
    ∃ text, process source spec layout = .ok text := by
  simp only [Spec.available, List.mem_cons, List.not_mem_nil, or_false] at h
  rcases h with rfl | rfl | rfl | rfl | rfl
  · exact ⟨listing ts, by simp only [process, hts, writeTokens]⟩
  · exact ⟨structuredTokens ts, by simp only [process, hts, writeTokens]⟩
  all_goals cases hstage

/-- So can programs. -/
theorem exists_process_of_ast (layout : Layout) (h : spec ∈ Spec.available) (hstage : spec.stage = .ast)
    (hts : tokens source = .ok ts) (hparse : parse ts = .ok program) :
    ∃ text, process source spec layout = .ok text := by
  obtain ⟨text, htext⟩ := exists_serialize layout program h hstage
  refine ⟨text, ?_⟩
  simp only [process, hts, hstage, hparse, htext, Except.mapError]

/-- **A spec that works is met** unless something is wrong with the source: it cannot be cut into tokens,
    or a program is wanted and it is none. -/
theorem process_cases (layout : Layout) (source : String) (h : spec ∈ Spec.available) :
    (∃ e, tokens source = .error e ∧ process source spec layout = .error (.source (.lex e))) ∨
    ∃ ts, tokens source = .ok ts ∧
      ((∃ e, spec.stage = .ast ∧ parse ts = .error e ∧
          process source spec layout = .error (.source (.syntaxError e))) ∨
        ((spec.stage = .ast → ∃ program, parse ts = .ok program) ∧
          ∃ text, process source spec layout = .ok text)) := by
  cases hts : tokens source with
  | error e => exact .inl ⟨e, rfl, by simp only [process, hts]⟩
  | ok ts =>
      refine .inr ⟨ts, rfl, ?_⟩
      cases hstage : spec.stage with
      | token => exact .inr ⟨(fun hne => nomatch hne), exists_process_of_token layout h hstage hts⟩
      | ast =>
          cases hparse : parse ts with
          | error e => exact .inl ⟨e, rfl, rfl, by simp only [process, hts, hstage, hparse]⟩
          | ok program =>
              exact .inr ⟨fun _ => ⟨program, rfl⟩, exists_process_of_ast layout h hstage hts hparse⟩

/-! ## Specs that do not work -/

/-- **A spec whose format is of no use at its stage**, and the error that tells so. -/
inductive Misfit : Spec → ProcessError → Prop
  /-- Tokens are no program, and make neither a tree nor graphs. -/
  | ofTokens {format : Format} : format = .treeviz ∨ format = .dot →
      Misfit ⟨.token, format⟩ (.tokenFormat format)
  /-- No formatter writes programs in the plain listing. -/
  | ofProgram : Misfit ⟨.ast, .simple⟩ (.formatting (.notFound "simple"))

variable {layout : Layout} {e : ProcessError}

/-- The specs that do not work are those that are not listed. -/
theorem exists_misfit_iff : (∃ e, Misfit spec e) ↔ spec ∉ Spec.available := by
  constructor
  · rintro ⟨e, hmisfit⟩
    cases hmisfit with
    | ofTokens hformat => rcases hformat with rfl | rfl <;> decide
    | ofProgram => decide
  · intro hnot
    obtain ⟨stage, format⟩ := spec
    cases stage with
    | token =>
        cases format with
        | simple | json => exact absurd (by decide) hnot
        | treeviz => exact ⟨_, .ofTokens (.inl rfl)⟩
        | dot => exact ⟨_, .ofTokens (.inr rfl)⟩
    | ast =>
        cases format with
        | simple => exact ⟨_, .ofProgram⟩
        | json | treeviz | dot => exact absurd (by decide) hnot

/-- Nothing is wrong with a source as far as a stage reads it. -/
def IsRead (source : String) (stage : Stage) : Prop :=
  ∃ ts, tokens source = .ok ts ∧ (stage = .ast → ∃ program, parse ts = .ok program)

/-- Of a source that is read, a misfit is told. -/
theorem process_of_misfit (h : Misfit spec e) (hread : IsRead source spec.stage) :
    process source spec layout = .error e := by
  obtain ⟨ts, hts, hprogram⟩ := hread
  cases h with
  | ofTokens hformat =>
      rcases hformat with rfl | rfl
      · simp only [process, hts, writeTokens]
      · simp only [process, hts, writeTokens]
  | ofProgram =>
      obtain ⟨program, hparse⟩ := hprogram rfl
      have hmissing : (Registry.withLayout layout).serialize program "simple" =
          .error (.notFound "simple") := by
        simp [Registry.serialize, Registry.withLayout, Registry.find?_register, Formatter.dot,
          Formatter.tree, Formatter.structured]
      simp only [process, hts, hparse, Format.name, hmissing, Except.mapError]

/-- A source that is read is written as a spec wants it that works. -/
theorem exists_process_of_isRead (layout : Layout) (h : spec ∈ Spec.available)
    (hread : IsRead source spec.stage) : ∃ text, process source spec layout = .ok text := by
  obtain ⟨ts, hts, hprogram⟩ := hread
  cases hstage : spec.stage with
  | token => exact exists_process_of_token layout h hstage hts
  | ast =>
      obtain ⟨program, hparse⟩ := hprogram hstage
      exact exists_process_of_ast layout h hstage hts hparse

/-- **Where a source is read, only misfits are errors.** -/
theorem process_error_iff (hread : IsRead source spec.stage) :
    process source spec layout = .error e ↔ Misfit spec e := by
  refine ⟨fun herror => ?_, fun h => process_of_misfit h hread⟩
  by_cases hmem : spec ∈ Spec.available
  · obtain ⟨text, htext⟩ := exists_process_of_isRead layout hmem hread
    rw [herror] at htext
    cases htext
  · obtain ⟨e', h⟩ := exists_misfit_iff.mpr hmem
    have hsame : process source spec layout = .error e' := process_of_misfit h hread
    rw [herror] at hsame
    obtain rfl := Except.error.inj hsame
    exact h

/-! ## Agreement -/

/-- Graphs are written as they are compiled, and errors are the same. -/
theorem process_dot (source : String) (layout : Layout) :
    process source ⟨.ast, .dot⟩ layout = (compile layout source).mapError .source := by
  unfold process compile program
  cases htokens : tokens source with
  | error e => rfl
  | ok ts =>
      cases hparse : parse ts with
      | error e => simp [hparse, Except.mapError, Except.map]
      | ok p =>
          simp [hparse, Except.mapError, Except.map, Registry.serialize, Registry.withLayout,
            Registry.find?_register, Format.name, Formatter.dot, Formatter.tree, Formatter.structured]

/-- **All that is told of a spec agrees**, whatever the source and the layout. -/
structure SpecAgrees (source : String) (layout : Layout) (spec : Spec) : Prop where
  /-- A text is understood as the spec if it is its spelling and the spec is listed. -/
  ofString_iff : ∀ text, Spec.ofString text = .ok spec ↔ spec ∈ Spec.available ∧ spec.display = text
  /-- First of all, a source without tokens is told of, -/
  lexError : ∀ e, tokens source = .error e → process source spec layout = .error (.source (.lex e))
  /-- then a source that is no program, if one is wanted; -/
  syntaxError : ∀ ts e, tokens source = .ok ts → spec.stage = .ast → parse ts = .error e →
    process source spec layout = .error (.source (.syntaxError e))
  /-- and only then a misfit, and nothing else. -/
  misfit_iff : IsRead source spec.stage → ∀ e, process source spec layout = .error e ↔ Misfit spec e
  /-- Misfits are the specs that no text is understood as. -/
  refused_iff : (∃ e, Misfit spec e) ↔ ∀ text, Spec.ofString text ≠ .ok spec
  /-- With a spec that a text is understood as, nothing is wrong but with the source. -/
  source_error : ∀ text e, Spec.ofString text = .ok spec → process source spec layout = .error e →
    ∃ fault, e = .source fault
  /-- Graphs are written as they are compiled. -/
  dot_eq : spec = ⟨.ast, .dot⟩ → process source spec layout = (compile layout source).mapError .source

/-- **The tables of specs agree with one another and with what is done**: what is understood, what is
    listed, what is written of tokens, what the registry finds, and what is compiled. -/
theorem specAgrees (source : String) (layout : Layout) (spec : Spec) :
    SpecAgrees source layout spec := by
  have hunderstood : (∃ text, Spec.ofString text = .ok spec) ↔ spec ∈ Spec.available := by
    simp only [Spec.ofString_ok_iff, exists_and_left]
    exact and_iff_left ⟨_, rfl⟩
  constructor
  case ofString_iff => exact fun text => Spec.ofString_ok_iff
  case lexError =>
    intro e htokens
    simp only [process, htokens]
  case syntaxError =>
    intro ts e hts hstage hparse
    simp only [process, hts, hstage, hparse]
  case misfit_iff => exact fun hread e => process_error_iff hread
  case refused_iff => rw [exists_misfit_iff, ← hunderstood, not_exists]
  case source_error =>
    intro text e htext herror
    rcases process_cases layout source (hunderstood.mp ⟨text, htext⟩) with
      ⟨fault, -, hlex⟩ | ⟨ts, -, ⟨fault, -, -, hsyntax⟩ | ⟨-, written, hok⟩⟩
    · exact ⟨_, Except.error.inj (herror.symm.trans hlex)⟩
    · exact ⟨_, Except.error.inj (herror.symm.trans hsyntax)⟩
    · rw [herror] at hok
      cases hok
  case dot_eq =>
    rintro rfl
    exact process_dot source layout

/-- Tokens make no graphs: no text asks for that, and where it is asked for, it is told of every source
    but one that has no tokens. -/
theorem specAgrees_tokenDot :
    let spec : Spec := ⟨.token, .dot⟩
    (∀ text, Spec.ofString text ≠ .ok spec) ∧
      process "BEGIN" spec .standard = .error (.tokenFormat .dot) ∧
      process "@" spec .standard = .error (.source (.lex ⟨"@", ⟨1, 1⟩⟩)) := by
  intro spec
  have hmisfit : Misfit spec (.tokenFormat .dot) := .ofTokens (.inr rfl)
  have hread : IsRead "BEGIN" .token :=
    ⟨[⟨.beginMark, "BEGIN", ⟨1, 1⟩⟩], by decide +kernel, fun hne => nomatch hne⟩
  have hlex : tokens "@" = .error ⟨"@", ⟨1, 1⟩⟩ := by decide +kernel
  have hword := specAgrees "BEGIN" .standard spec
  have hstray := specAgrees "@" .standard spec
  exact ⟨hword.refused_iff.mp ⟨_, hmisfit⟩, (hword.misfit_iff hread _).mpr hmisfit,
    hstray.lexError _ hlex⟩

end StateDiagram

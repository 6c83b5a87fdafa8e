import StateDiagram.Registry
import StateDiagram.Statement.Parser
import StateDiagram.Token.Lexer
import StateDiagram.Token.Listing

/-!
# `Pipeline` — from a source to a text

What is wanted of a source is told by a spec, a stage and a format: `token-simple`, `token-json`,
`ast-json`, `ast-treeviz`, `ast-dot`. A spec of its own right can pair any stage with any format;
the spelled ones are the five pairs that work.

## Contents

* `SourceError`, `program`, `compile` — the program of a source, and its graphs;
* `Stage`, `Format`, `Spec` — what is wanted;
* `SpecError`, `Spec.ofString` — how it is spelled;
* `Spec.available` — the five specs that work;
* `ProcessError`, `process` — the text that a spec wants of a source.
-/

namespace StateDiagram

/-! ## Programs and graphs -/

/-- What is wrong with a source. -/
inductive SourceError
  | lex (e : LexError)
  | syntaxError (e : SyntaxError)
deriving DecidableEq, Repr

/-- The report of what is wrong with a source. -/
def SourceError.message : SourceError → String
  | lex e => e.message
  | syntaxError e => e.message

/-- The program of a source. -/
def program (source : String) : Except SourceError (List Statement) :=
  match tokens source with
  | .error e => .error (.lex e)
  | .ok ts => (parse ts).mapError .syntaxError

/-- The graphs of a source's machines. -/
def compile (layout : Layout) (source : String) : Except SourceError String :=
  (program source).map (dot layout)

/-! ## Specs -/

/-- How far a source is read. -/
inductive Stage
  | token
  | ast
deriving DecidableEq, Repr

/-- How what was read is written. -/
inductive Format
  | simple
  | json
  | treeviz
  | dot
deriving DecidableEq, Repr

/-- What is wanted of a source. -/
structure Spec where
  stage : Stage
  format : Format
deriving DecidableEq, Repr

/-- The spelling of a stage. -/
def Stage.name : Stage → String
  | token => "token"
  | ast => "ast"

/-- The spelling of a format. -/
def Format.name : Format → String
  | simple => "simple"
  | json => "json"
  | treeviz => "treeviz"
  | dot => "dot"

/-- The stage of a spelling. -/
def Stage.ofName? : String → Option Stage
  | "token" => some token
  | "ast" => some ast
  | _ => none

/-- The format of a spelling. -/
def Format.ofName? : String → Option Format
  | "simple" => some simple
  | "json" => some json
  | "treeviz" => some treeviz
  | "dot" => some dot
  | _ => none

namespace Spec

/-- The spelling of a spec. -/
def display (spec : Spec) : String :=
  spec.stage.name ++ "-" ++ spec.format.name

/-- The specs that work, in the order in which they are listed. -/
def available : List Spec :=
  [⟨.token, .simple⟩, ⟨.token, .json⟩, ⟨.ast, .json⟩, ⟨.ast, .treeviz⟩, ⟨.ast, .dot⟩]

end Spec

/-- The spellings of the specs that work. -/
def availableFormats : List String :=
  Spec.available.map Spec.display

/-- What is wrong with a spec. -/
inductive SpecError
  /-- There is no dash in it. -/
  | noDash (text : String)
  /-- What stands before the dash is no stage. -/
  | unknownStage (text : String)
  /-- What stands after the dash is no format. -/
  | unknownFormat (text : String)
  /-- The format is of no use at its stage, but at the other one. -/
  | mismatch (format : Format) (works : Stage)
deriving DecidableEq, Repr

/-- The report of what is wrong with a spec. -/
def SpecError.message : SpecError → String
  | noDash text => "Invalid format: " ++ text
  | unknownStage text => "Invalid stage: " ++ text
  | unknownFormat text => "Invalid format type: " ++ text
  | mismatch format works =>
    "Invalid format type: Format '" ++ format.name ++ "' only works with " ++ works.name ++ " stage"

/-- The spec of a spelling: a stage, a dash, a format that works at the stage. -/
def Spec.ofString (text : String) : Except SpecError Spec :=
  match text.toList.span (· ≠ '-') with
  | (_, []) => .error (.noDash text)
  | (before, _ :: after) =>
    match Stage.ofName? (.ofList before), Format.ofName? (.ofList after) with
    | none, _ => .error (.unknownStage (.ofList before))
    | _, none => .error (.unknownFormat (.ofList after))
    | some .token, some .treeviz => .error (.mismatch .treeviz .ast)
    | some .token, some .dot => .error (.mismatch .dot .ast)
    | some .ast, some .simple => .error (.mismatch .simple .token)
    | some stage, some format => .ok ⟨stage, format⟩

/-! ## Processing -/

/-- Why a source gives no text. -/
inductive ProcessError
  | source (e : SourceError)
  /-- The format is for programs and was wanted of tokens. -/
  | tokenFormat (format : Format)
  | formatting (e : FormatError)
deriving DecidableEq, Repr

/-- The report of why a source gives no text. -/
def ProcessError.message : ProcessError → String
  | source e => e.message
  | tokenFormat format => "Invalid format type: " ++ format.name ++ " format only works with ast stage"
  | formatting e => e.message

/-- Tokens in a format. -/
def writeTokens (ts : List Token) : Format → Except ProcessError String
  | .simple => .ok (listing ts)
  | .json => .ok (structuredTokens ts)
  | format => .error (.tokenFormat format)

/-- The text that a spec wants of a source. -/
def process (source : String) (spec : Spec) (layout : Layout) : Except ProcessError String :=
  match tokens source with
  | .error e => .error (.source (.lex e))
  | .ok ts =>
    match spec.stage with
    | .token => writeTokens ts spec.format
    | .ast =>
      match parse ts with
      | .error e => .error (.source (.syntaxError e))
      | .ok p => ((Registry.withLayout layout).serialize p spec.format.name).mapError .formatting

end StateDiagram

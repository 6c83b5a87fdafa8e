/-!
# `Command.Arguments` — what a command line asks for

Arguments are read from left to right. A request for help or for the version is granted as soon as it
is met; so is the refusal of an argument that has no place.

## Contents

* `Topic`, `Request` — what can be asked for;
* `Setter`, `Setter.ofLetter?`, `Setter.ofName?` — the options that take a value;
* `Word`, `Word.ofArgument`, `mayBeValue` — how an argument reads;
* `ExecuteArgs`, `ExecuteArgs.requestOf` — the arguments of `execute`;
* `Request.ofListArguments`, `Request.ofHelpArguments`, `Request.ofOption` — all other arguments;
* `Request.ofArguments` — what a command line asks for.
-/

namespace StateDiagram

/-- What help can be about. -/
inductive Topic
  | program
  | execute
  | listFormats
  | help
deriving DecidableEq, Repr

/-- What a command line asks for. -/
inductive Request
  /-- The text that a format wants of a source, with settings from a file if one is given. -/
  | execute (path format : String) (config : Option String)
  | listFormats
  | version
  | help (topic : Topic)
  /-- Nothing that there is. -/
  | misuse
deriving DecidableEq, Repr

/-! ## Spellings -/

/-- The options of `execute` that take a value. -/
inductive Setter
  | format
  | config
deriving DecidableEq, Repr

/-- How an argument reads before any is known to be a value. -/
inductive Word
  /-- No option. -/
  | plain (text : String)
  /-- Two dashes: no option follows. -/
  | endOfOptions
  | help
  /-- An option with its value in the next argument. -/
  | setter (s : Setter)
  /-- An option with its value in the same argument. -/
  | setting (s : Setter) (value : String)
  | unknown
deriving DecidableEq, Repr

/-- The option of a letter. -/
def Setter.ofLetter? : Char → Option Setter
  | 'f' => some .format
  | 'c' => some .config
  | _ => none

/-- The option of a name. -/
def Setter.ofName? (name : List Char) : Option Setter :=
  if name = "format".toList then some .format
  else if name = "config".toList then some .config
  else none

/-- An argument with two dashes in front: a name, then perhaps an equals sign and a value. -/
def Word.ofLong (body : List Char) : Word :=
  let name := body.takeWhile (· ≠ '=')
  match body.dropWhile (· ≠ '='), Setter.ofName? name with
  | [], some s => .setter s
  | _ :: value, some s => .setting s (String.ofList value)
  | [], none => if name = "help".toList then .help else .unknown
  | _ :: _, none => .unknown

/-- An argument with one dash in front: a letter, then perhaps a value, with or without an equals
    sign. -/
def Word.ofShort (letter : Char) (rest : List Char) : Word :=
  if letter = 'h' then .help
  else
    match Setter.ofLetter? letter, rest with
    | none, _ => .unknown
    | some s, [] => .setter s
    | some s, '=' :: value => .setting s (String.ofList value)
    | some s, value => .setting s (String.ofList value)

/-- How an argument reads. A lone dash is no option. -/
def Word.ofArgument (arg : String) : Word :=
  match arg.toList with
  | ['-', '-'] => .endOfOptions
  | '-' :: '-' :: body => .ofLong body
  | '-' :: letter :: rest => .ofShort letter rest
  | _ => .plain arg

/-- Whether an argument may be the value of the option before it. -/
def mayBeValue (arg : String) : Bool :=
  match Word.ofArgument arg with
  | .plain _ => true
  | _ => false

/-! ## The arguments of `execute` -/

/-- The arguments of `execute` so far. -/
structure ExecuteArgs where
  path : Option String
  format : Option String
  config : Option String
deriving DecidableEq, Repr

namespace ExecuteArgs

/-- No arguments yet. -/
def empty : ExecuteArgs := ⟨none, none, none⟩

/-- The path, which is given once. -/
def setPath? (args : ExecuteArgs) (path : String) : Option ExecuteArgs :=
  if args.path.isSome then none else some { args with path := some path }

/-- The value of an option, which is given once. -/
def set? (args : ExecuteArgs) (value : String) : Setter → Option ExecuteArgs
  | .format => if args.format.isSome then none else some { args with format := some value }
  | .config => if args.config.isSome then none else some { args with config := some value }

/-- The request, when no argument is left. There has to be a path; graphs are what is wanted if
    nothing else is said. -/
def request (args : ExecuteArgs) : Request :=
  match args.path with
  | some path => .execute path (args.format.getD "ast-dot") args.config
  | none => .misuse

/-- The request, when only paths may follow. -/
def requestOfPaths (args : ExecuteArgs) : List String → Request
  | [] => args.request
  | arg :: rest =>
    match args.setPath? arg with
    | some args => args.requestOfPaths rest
    | none => .misuse

/-- The request after more arguments. -/
def requestOf (args : ExecuteArgs) : List String → Request
  | [] => args.request
  | arg :: rest =>
    match Word.ofArgument arg with
    | .plain path =>
      match args.setPath? path with
      | some args => args.requestOf rest
      | none => .misuse
    | .endOfOptions => args.requestOfPaths rest
    | .help => .help .execute
    | .setting s value =>
      match args.set? value s with
      | some args => args.requestOf rest
      | none => .misuse
    | .setter s =>
      match rest with
      | value :: rest =>
        if mayBeValue value then
          match args.set? value s with
          | some args => args.requestOf rest
          | none => .misuse
        else .misuse
      | [] => .misuse
    | .unknown => .misuse

end ExecuteArgs

/-! ## The command line -/

namespace Request

/-- The arguments of `list-formats`: none. -/
def ofListArguments : List String → Request
  | [] => listFormats
  | arg :: rest =>
    match Word.ofArgument arg, rest with
    | .help, _ => help .listFormats
    | .endOfOptions, [] => listFormats
    | _, _ => misuse

/-- The arguments of `help`: a topic. -/
def ofHelpArguments : List String → Request
  | [] => help .program
  | ["execute"] => help .execute
  | ["list-formats"] => help .listFormats
  | ["help"] => help .help
  | _ => misuse

/-- An option in place of a command. -/
def ofOption (arg : String) : Request :=
  match arg.toList with
  | '-' :: 'V' :: _ => version
  | '-' :: 'h' :: _ => help .program
  | _ =>
    if arg = "--version" then version
    else if arg = "--help" then help .program
    else misuse

/-- What a command line asks for. -/
def ofArguments : List String → Request
  | [] => misuse
  | "execute" :: args => ExecuteArgs.empty.requestOf args
  | "list-formats" :: args => ofListArguments args
  | "help" :: args => ofHelpArguments args
  | arg :: _ => ofOption arg

end Request

end StateDiagram

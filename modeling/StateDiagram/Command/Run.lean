import StateDiagram.Command.Arguments
import StateDiagram.Files.Source
import StateDiagram.Settings.Layers

/-!
# `Command.Run` — what a command line prints

A request either prints what it asks for and nothing else, or reports the first thing that is wrong and
prints nothing: the spec comes first, then the settings, then the source.

## Contents

* `Outcome` — exit code and both outputs;
* `CommandError`, `CommandError.message` — what can be wrong, and the report;
* `execute` — the text of a source in a file;
* `Request.run` — the outcome of a request;
* `Request.paths` — the only files that an outcome depends on.
-/

namespace StateDiagram

/-- What a program leaves behind. -/
structure Outcome where
  exit : Nat
  stdout : String
  stderr : String
deriving DecidableEq, Repr

/-! ## Executing -/

/-- What is wrong with a request for the text of a source. -/
inductive CommandError
  | spec (e : SpecError)
  | settings (e : SettingsError)
  | file (e : FileError)
deriving Repr

/-- The report of what is wrong. A wrong spec is answered with the right ones. -/
def CommandError.message : CommandError → String
  | spec e =>
    "Error: " ++ e.message ++ "\nAvailable formats: " ++ String.intercalate ", " availableFormats ++
      "\n"
  | settings e => "Error loading configuration: " ++ e.message ++ "\n"
  | file e => "Error: " ++ e.message ++ "\n"

/-- The layers of a command line: a file or none. -/
def Layers.ofConfig : Option String → Layers
  | some path => defaults.withFile path
  | none => defaults

/-- The text that a format wants of a source in a file. -/
def execute (files : Files) (path format : String) (config : Option String) :
    Except CommandError String :=
  match Spec.ofString format with
  | .error e => .error (.spec e)
  | .ok spec =>
    match (Layers.ofConfig config).layout files with
    | .error e => .error (.settings e)
    | .ok layout => (processFile files path spec layout).mapError .file

/-! ## Texts -/

/-- The program's name and version. -/
def versionText : String := "av 0.1.0\n"

/-- The list of formats. -/
def formatsText : String :=
  "Available formats:\n\n" ++ String.join (availableFormats.map fun f => "  " ++ f ++ "\n")

/-- Help. -/
def Topic.text : Topic → String
  | program =>
    "A tool for compiling and inspecting av machine definitions\n\n" ++
    "Usage: av <COMMAND>\n\n" ++
    "Commands:\n" ++
    "  execute       Process an .av file\n" ++
    "  list-formats  List available output formats\n" ++
    "  help          Print this message or the help of the given subcommand(s)\n\n" ++
    "Options:\n" ++
    "  -h, --help     Print help\n" ++
    "  -V, --version  Print version\n"
  | execute =>
    "Process an .av file\n\n" ++
    "Usage: av execute [OPTIONS] <path>\n\n" ++
    "Arguments:\n" ++
    "  <path>  Path to the .av file\n\n" ++
    "Options:\n" ++
    "  -f, --format <format>  Output format (e.g., 'ast-dot', 'token-simple') [default: ast-dot]\n" ++
    "  -c, --config <config>  TOML file layered over the built-in defaults\n" ++
    "  -h, --help             Print help\n"
  | listFormats =>
    "List available output formats\n\n" ++
    "Usage: av list-formats\n\n" ++
    "Options:\n" ++
    "  -h, --help  Print help\n"
  | help =>
    "Print this message or the help of the given subcommand(s)\n\n" ++
    "Usage: av help [COMMAND]...\n\n" ++
    "Arguments:\n" ++
    "  [COMMAND]...  Print help for the subcommand(s)\n"

/-! ## Outcomes -/

/-- Everything went well. -/
def Outcome.success (text : String) : Outcome := ⟨0, text, ""⟩

/-- Something is wrong. -/
def Outcome.failure (report : String) : Outcome := ⟨1, "", report⟩

/-- The arguments make no sense. Of this outcome only the exit code and the empty output are what a user
    is shown; the report, which would name the argument at fault, is not kept, and help stands for it. -/
def Outcome.usage : Outcome := ⟨2, "", Topic.program.text⟩

/-- The outcome of a request. -/
def Request.run (files : Files) : Request → Outcome
  | execute path format config =>
    match StateDiagram.execute files path format config with
    | .ok text => .success text
    | .error e => .failure e.message
  | listFormats => .success formatsText
  | version => .success versionText
  | help topic => .success topic.text
  | misuse => .usage

/-- The paths of the files that the outcome of a request may depend on. -/
def Request.paths : Request → List String
  | execute path _ config => path :: (config.map fun c => c :: (Path.adding? c ".toml").toList).getD []
  | _ => []

end StateDiagram

import Interpolation.CommandLine.Options
import Interpolation.Configuration.File
import Interpolation.Diagnostic.Check
import Interpolation.Diagnostic.Report
import Interpolation.Processor

/-!
# Interpolation.CommandLine.Session

A **session** is one run of the program: what it is given and what it answers, without doing either.
The outer layer reads files and prints.

Settings come from the configuration file first, then from the assignments of the command line in
their order; a limit on the command line replaces that of the file. Nothing is printed on standard
output unless the whole template was expanded.
-/

namespace Interpolation.CommandLine

/-- What a session is given. -/
structure Surroundings where
  /-- The arguments of the command line. -/
  arguments : List Text
  /-- The folder in which the program works; none if it cannot be told. -/
  folder : Option FilePath
  /-- The bytes of standard input, or why they cannot be had; none if it is a terminal. -/
  input : Option (Except ReadError (List UInt8))
  /-- The bytes of a file, or why they cannot be had. -/
  read : Text → Except ReadError (List UInt8)

/-- What a session answers. -/
structure Outcome where
  /-- The exit code. -/
  exit : Nat
  /-- The text for standard output. -/
  output : Text
  /-- The text for standard error. -/
  errors : Text
  deriving DecidableEq, Repr

/-! ### Fixed texts -/

/-- How the program is used, as `--help` shows it. -/
def usage : Text := "Expand $\x7b...\x7d placeholders in text templates

Usage: text-processor [OPTIONS] [INPUT]

Arguments:
  [INPUT]  Template file (reads from stdin if not provided)

Options:
  -c, --config <CONFIG>  Configuration file (TOML format)
  -s, --set <KEY=VALUE>  Set a configuration value, overriding the configuration file
  -a, --arg <VALUE>      Positional argument, referenced as $\x7b0\x7d, $\x7b1\x7d, ...
      --max-depth <N>    Maximum nesting of conditional patterns
      --check            Report unterminated and unresolved placeholders instead of expanding
  -d, --debug            Debug mode: log dropped and unresolved placeholders
  -h, --help             Print help
".toList

/-- What the program tells someone who starts it in a terminal without a template. -/
def introduction : Text := "Text Processor - Expand $\x7b...\x7d placeholders in text templates

USAGE:
    text-processor [OPTIONS] [FILE]
    echo '<template>' | text-processor

OPTIONS:
    -c, --config <FILE>    Configuration values (TOML file)
    -s, --set KEY=VALUE    Set a configuration value
    -a, --arg VALUE        Positional argument for $\x7b0\x7d, $\x7b1\x7d, ...
    --max-depth N          Limit conditional nesting
    --check                Report template problems
    -d, --debug            Log dropped and unresolved placeholders
    -h, --help             Print help

SYNTAX:
    $\x7bname\x7d              Value of name; kept as-is if name is unknown
    $\x7bname?text\x7d         text if the value is non-empty
    $\x7b!name?text\x7d        text if the value is empty
    $, \x7b, \x7d               Literal unless $ is directly followed by \x7b

QUICK START:
    echo 'Hello $\x7b0\x7d$\x7bgreet? ($\x7bgreet\x7d)\x7d' | text-processor -a World -s greet=hi
".toList

/-! ### Steps -/

/-- A failure that ends a session: what was logged before it, and its message. -/
structure Failure where
  /-- The records up to the failure. -/
  log : List LogRecord
  /-- What went wrong. -/
  message : Text

/-- The template that a session works on. -/
structure Source where
  /-- The text of the template. -/
  text : Text
  /-- The name under which reports show it. -/
  name : Text

/-- The settings of a session and the records on the way to them. -/
def loadSettings (s : Surroundings) (o : Options) :
    Except Failure (ConfigurationFile × List LogRecord) := do
  let loaded : ConfigurationFile × List LogRecord ← match o.config with
    | none => .ok (ConfigurationFile.empty, [])
    | some path =>
      match (s.read path).mapError FileError.unreadable >>=
          ConfigurationFile.ofBytes s.folder with
      | .ok file => .ok (file, [file.loadedRecord path])
      | .error e =>
        .error ⟨[], "Error loading configuration '".toList ++ path ++ "': ".toList ++ e.message⟩
  let values := o.assignments.foldl (fun c a => c.setValue s.folder a.1 (.text a.2)) loaded.1.values
  return (⟨o.maxDepth.or loaded.1.maxDepth, values⟩, loaded.2)

/-- The record of the settings in force. -/
def settingsRecord (file : ConfigurationFile) : LogRecord :=
  let depth := match file.maxDepth with
    | none => "None".toList
    | some n => "Some(".toList ++ numeral n ++ [')']
  ⟨.debug, .program,
    numeral file.values.size ++ " configuration values, max depth ".toList ++ depth⟩

/-- Decode the bytes of a template. -/
def decodeSource (bytes : Except ReadError (List UInt8)) : Except ReadError Text := do
  match Text.ofBytes? (← bytes) with
  | some t => return t
  | none => .error .notUtf8

/-- The template of a session, or the message that it cannot be read. -/
def loadSource (s : Surroundings) (o : Options) : Except Text Source :=
  match o.input with
  | some path =>
    match decodeSource (s.read path) with
    | .ok text => .ok ⟨text, path⟩
    | .error e => .error ("Error reading file '".toList ++ path ++ "': ".toList ++ e.message)
  | none =>
    match decodeSource (s.input.getD (.ok [])) with
    | .ok text => .ok ⟨text, "<stdin>".toList⟩
    | .error e => .error ("Error reading from stdin: ".toList ++ e.message)

/-- The lines of a log that are shown: with the debug option those of records that are no traces. -/
def shownLog (debug : Bool) (log : List LogRecord) : Text :=
  if debug then (log.filter fun r => r.level ≠ .trace).flatMap LogRecord.printed else []

/-- Work on a template with the settings in force. -/
def perform (o : Options) (file : ConfigurationFile) (source : Source) (log : List LogRecord) :
    Outcome :=
  let args := o.arguments.map Value.text
  if o.check then
    let diagnostics := (checkBoth source.text (some file.values) args).map Finding.toDiagnostic
    let reports := diagnostics.flatMap fun d => d.report source.text source.name
    ⟨if diagnostics.any Diagnostic.isError then 1 else 0, [], shownLog o.debug log ++ reports⟩
  else
    let run := Processor.processBoth ⟨file.maxDepth⟩ source.text (some file.values) args
    let errors := shownLog o.debug (log ++ run.log)
    match run.result with
    | .ok text => ⟨0, text, errors⟩
    | .error e => ⟨1, [], errors ++ "Error: ".toList ++ e.message ++ ['\n']⟩

/-- Answer a command line that was understood. -/
def runOptions (s : Surroundings) (o : Options) : Outcome :=
  if o.input = none ∧ s.input = none then ⟨0, introduction, []⟩
  else match loadSettings s o with
    | .error f => ⟨1, [], shownLog o.debug f.log ++ f.message ++ ['\n']⟩
    | .ok (file, log) =>
      let log := log ++ [settingsRecord file]
      match loadSource s o with
      | .error message => ⟨1, [], shownLog o.debug log ++ message ++ ['\n']⟩
      | .ok source => perform o file source log

/-- Answer a command line. Wrong usage has an exit code of its own. -/
def run (s : Surroundings) : Outcome :=
  match Options.parse s.arguments with
  | .error .help => ⟨0, usage, []⟩
  | .error (.usage e) => ⟨2, [], "error: ".toList ++ e.message⟩
  | .ok o => runOptions s o

end Interpolation.CommandLine

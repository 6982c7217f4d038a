import Interpolation.Number.Numeral
import Interpolation.Text.Blank
import Interpolation.Text.Controls

/-!
# Interpolation.CommandLine.Options

The **options** of the command line, read from the list of its arguments.

Design points:

* A value may be attached to its option (`--arg=x`, `-ax`, `-a=x`) or stand after it. A value that
  stands after it must not begin with a hyphen, a lone hyphen apart.
* Reading goes from left to right, and a value is looked at when the argument after it has turned
  out to be known. So an unknown argument is reported even if the value before it is wrong.
* Flags can be written together behind one hyphen; the last of them may be an option with a value.
-/

namespace Interpolation.CommandLine

/-- What the command line asks for. -/
structure Options where
  /-- The file of the template; without one it is read from standard input. -/
  input : Option Text
  /-- The configuration file. -/
  config : Option Text
  /-- Keys and values to be set, in order. -/
  assignments : List (Text × Text)
  /-- The positional arguments of the template. -/
  arguments : List Text
  /-- How many patterns may be taken inside each other. -/
  maxDepth : Option Nat
  /-- Is the template to be checked instead of expanded? -/
  check : Bool
  /-- Is the log to be shown? -/
  debug : Bool
  deriving DecidableEq, Repr

/-- Nothing asked for. -/
def Options.none : Options := ⟨.none, .none, [], [], .none, false, false⟩

/-! ### Parameters -/

/-- Options that are on or off. -/
inductive Flag
  /-- Check the template. -/
  | check
  /-- Show the log. -/
  | debug
  /-- Show how the program is used. -/
  | help
  deriving DecidableEq, Repr

/-- Parameters with a value. -/
inductive Parameter
  /-- The file of the template, which has no name. -/
  | input
  /-- The configuration file. -/
  | config
  /-- An assignment. -/
  | assignment
  /-- A positional argument of the template. -/
  | argument
  /-- The limit. -/
  | maxDepth
  deriving DecidableEq, Repr

/-- How messages call a flag. -/
def Flag.label : Flag → Text
  | .check => "--check".toList
  | .debug => "--debug".toList
  | .help => "--help".toList

/-- How messages call a parameter. -/
def Parameter.label : Parameter → Text
  | .input => "[INPUT]".toList
  | .config => "--config <CONFIG>".toList
  | .assignment => "--set <KEY=VALUE>".toList
  | .argument => "--arg <VALUE>".toList
  | .maxDepth => "--max-depth <N>".toList

/-- What an option of the given name is: a flag or a parameter. -/
def option? (name : Text) : Option (Flag ⊕ Parameter) :=
  if name = "check".toList then some (.inl .check)
  else if name = "debug".toList then some (.inl .debug)
  else if name = "help".toList then some (.inl .help)
  else if name = "config".toList then some (.inr .config)
  else if name = "set".toList then some (.inr .assignment)
  else if name = "arg".toList then some (.inr .argument)
  else if name = "max-depth".toList then some (.inr .maxDepth)
  else .none

/-- What an option of one letter is. -/
def letter? (c : Char) : Option (Flag ⊕ Parameter) :=
  if c = 'd' then some (.inl .debug)
  else if c = 'h' then some (.inl .help)
  else if c = 'c' then some (.inr .config)
  else if c = 's' then some (.inr .assignment)
  else if c = 'a' then some (.inr .argument)
  else .none

/-! ### Errors -/

/-- Why a value is not right for its parameter. -/
inductive ValueError
  /-- The limit is no number. -/
  | limit (error : NumeralError)
  /-- The assignment has no `=`. -/
  | noAssignment
  /-- The assignment has a blank key. -/
  | emptyKey
  deriving DecidableEq, Repr

/-- The wording of what is wrong with a value. -/
def ValueError.message (value : Text) : ValueError → Text
  | .limit error => error.message
  | .noAssignment => "expected KEY=VALUE, got '".toList ++ value ++ ['\'']
  | .emptyKey => "empty key in '".toList ++ value ++ ['\'']

/-- Wrong usage. -/
inductive UsageError
  /-- There is no such option, or no room for another argument. -/
  | unexpected (argument : Text)
  /-- A parameter stands without a value. -/
  | valueRequired (parameter : Parameter)
  /-- The value of a parameter is not right. -/
  | invalidValue (parameter : Parameter) (value : Text) (error : ValueError)
  /-- A flag has a value. -/
  | unneededValue (flag : Flag) (value : Text)
  /-- A flag stands more than once. -/
  | repeatedFlag (flag : Flag)
  /-- A parameter stands more than once. -/
  | repeatedParameter (parameter : Parameter)
  deriving DecidableEq, Repr

/-- The wording of wrong usage, a line of its own. What the command line says is shown without
controls; a control sequence that is not finished in a value ends with it, one in the explanation
takes what follows with it. -/
def UsageError.message : UsageError → Text
  | .unexpected argument =>
    "unexpected argument '".toList ++ argument.withoutControls ++ "' found\n".toList
  | .valueRequired parameter =>
    "a value is required for '".toList ++ parameter.label ++ "' but none was supplied\n".toList
  | .invalidValue parameter value error =>
    "invalid value '".toList ++ value.withoutControls ++ "' for '".toList ++ parameter.label ++
      "': ".toList ++ Text.withoutControls (error.message value ++ ['\n'])
  | .unneededValue flag value =>
    "unexpected value '".toList ++ value.withoutControls ++ "' for '".toList ++ flag.label ++
      "' found; no more were expected\n".toList
  | .repeatedFlag flag =>
    "the argument '".toList ++ flag.label ++ "' cannot be used multiple times\n".toList
  | .repeatedParameter parameter =>
    "the argument '".toList ++ parameter.label ++ "' cannot be used multiple times\n".toList

/-- Why the command line asks for no run. -/
inductive Refusal
  /-- It asks how the program is used. -/
  | help
  /-- It is wrong. -/
  | usage (error : UsageError)
  deriving DecidableEq, Repr

/-! ### Values -/

/-- The key and the value of an assignment. The key loses blanks at either end, the
value nothing. -/
def parseAssignment (t : Text) : Except ValueError (Text × Text) :=
  match t.cut '=' with
  | .none => .error .noAssignment
  | some (key, value) => if key.trim = [] then .error .emptyKey else .ok (key.trim, value)

/-- The options with one more value. -/
def Options.give (o : Options) (parameter : Parameter) (value : Text) : Except UsageError Options :=
  let invalid (e : ValueError) : UsageError := .invalidValue parameter value e
  match parameter with
  | .input =>
    if value = [] then .error (.valueRequired .input) else .ok { o with input := some value }
  | .config =>
    if o.config.isSome then .error (.repeatedParameter .config)
    else if value = [] then .error (.valueRequired .config)
    else .ok { o with config := some value }
  | .assignment =>
    match parseAssignment value with
    | .error e => .error (invalid e)
    | .ok a => .ok { o with assignments := o.assignments ++ [a] }
  | .argument => .ok { o with arguments := o.arguments ++ [value] }
  | .maxDepth =>
    if o.maxDepth.isSome then .error (.repeatedParameter .maxDepth)
    else match (IntRange.unsigned 64).read value with
      | .error e => .error (invalid (.limit e))
      | .ok n => .ok { o with maxDepth := some n.toNat }

/-- The options with one more flag. -/
def Options.raise (o : Options) : Flag → Except Refusal Options
  | .check =>
    if o.check then .error (.usage (.repeatedFlag .check)) else .ok { o with check := true }
  | .debug =>
    if o.debug then .error (.usage (.repeatedFlag .debug)) else .ok { o with debug := true }
  | .help => .error .help

/-! ### Reading the arguments -/

/-- How far the command line has been read: the options so far, the parameter that was named last
with its value if that has been seen, and whether a template file was named. -/
structure Progress where
  /-- The options whose values have been looked at. -/
  options : Options
  /-- A parameter whose value has not been looked at yet. -/
  pending : Option (Parameter × Option Text)
  /-- Has the file of the template been named? -/
  hasInput : Bool

namespace Progress

/-- Look at the value of the pending parameter. -/
def settle (p : Progress) : Except Refusal Options :=
  match p.pending with
  | .none => .ok p.options
  | some (parameter, .none) => .error (.usage (.valueRequired parameter))
  | some (parameter, some value) => (p.options.give parameter value).mapError .usage

/-- A parameter with a value attached to it, or one that waits for its value. -/
def name (p : Progress) (parameter : Parameter) (value : Option Text) :
    Except Refusal Progress := do
  let options ← p.settle
  match value with
  | .none => return { p with options, pending := some (parameter, .none) }
  | some value =>
    let options ← (options.give parameter value).mapError .usage
    return { p with options, pending := .none }

/-- A flag. -/
def raise (p : Progress) (flag : Flag) : Except Refusal Progress := do
  let options ← (← p.settle).raise flag
  return { p with options, pending := .none }

/-- An argument that belongs to no option: the file of the template, once. -/
def position (p : Progress) (argument : Text) : Except Refusal Progress :=
  if p.hasInput then .error (.usage (.unexpected argument))
  else do
    let options ← p.settle
    return ⟨options, some (.input, some argument), true⟩

/-- An option by its long name, with what is attached to it. -/
def long (p : Progress) (t : Text) : Except Refusal Progress :=
  let parts : Text × Option Text := match t.cut '=' with
    | some (name, value) => (name, some value)
    | .none => (t, .none)
  match option? parts.1, parts.2 with
  | .none, _ => .error (.usage (.unexpected ('-' :: '-' :: parts.1)))
  | some (.inl flag), some value => .error (.usage (.unneededValue flag value))
  | some (.inl flag), .none => p.raise flag
  | some (.inr parameter), value => p.name parameter value

/-- Options of one letter each; what follows the letter of a parameter is its value, an equals
sign between them apart. -/
def letters (p : Progress) : Text → Except Refusal Progress
  | [] => .ok p
  | c :: t =>
    match letter? c with
    | .none => .error (.usage (.unexpected ['-', c]))
    | some (.inl flag) => (p.raise flag).bind fun p => p.letters t
    | some (.inr parameter) =>
      p.name parameter <| match t with
        | [] => .none
        | '=' :: value => some value
        | value => some value

/-- Read arguments; after a lone `--` none of them is an option. -/
def read (p : Progress) : (optionsEnded : Bool) → List Text → Except Refusal Options
  | _, [] => p.settle
  | true, argument :: rest => (p.position argument).bind fun p => p.read true rest
  | false, argument :: rest =>
    match argument with
    | ['-', '-'] => p.read true rest
    | '-' :: '-' :: t => (p.long t).bind fun p => p.read false rest
    | '-' :: c :: t => (p.letters (c :: t)).bind fun p => p.read false rest
    | _ =>
      match p.pending with
      | some (parameter, .none) =>
        read { p with pending := some (parameter, some argument) } false rest
      | _ => (p.position argument).bind fun p => p.read false rest

end Progress

/-- Read the arguments of the command line. -/
def Options.parse (arguments : List Text) : Except Refusal Options :=
  Progress.read ⟨.none, .none, false⟩ false arguments

end Interpolation.CommandLine

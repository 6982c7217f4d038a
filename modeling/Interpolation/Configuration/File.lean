import Interpolation.Configuration.Basic
import Interpolation.Log
import Interpolation.Text.Utf8
import Interpolation.Toml.Document
import Interpolation.Toml.Settled

/-!
# Interpolation.Configuration.File

**Configuration files** are TOML documents with a table `values`, which becomes a
configuration, and a table `processor`, which may limit the nesting of patterns. Everything
else in a document is ignored.

Design points:

* Tables inside `values` disappear: a value is stored under the names on the way to it, with
  dots between them (`Flat.entries`). When two values end up under one key, the later one in the
  order of the keys counts.
* Arrays are stored as their items with commas between them, inner arrays likewise. A table inside
  an array has no such text, and a file with one is refused.
-/

namespace Interpolation

/-- Why bytes could not be had, or not be read as a text. -/
inductive ReadError
  /-- The system refused, for a reason with a wording and a number. -/
  | system (wording : Text) (number : Nat)
  /-- The bytes are not UTF-8. -/
  | notUtf8
  deriving DecidableEq, Repr

namespace ReadError

/-- There is no such file. -/
def notFound : ReadError := .system "No such file or directory".toList 2

/-- The name leads through something that is no directory. -/
def notDirectory : ReadError := .system "Not a directory".toList 20

/-- The name is that of a directory. -/
def isDirectory : ReadError := .system "Is a directory".toList 21

/-- The name is longer than names can be. -/
def nameTooLong : ReadError := .system "File name too long".toList 36

/-- The wording of a failure to read. -/
def message : ReadError → Text
  | .system wording number => wording ++ " (os error ".toList ++ numeral number ++ [')']
  | .notUtf8 => "stream did not contain valid UTF-8".toList

end ReadError

/-- Why a configuration file was refused. -/
inductive FileError
  /-- The file could not be read. -/
  | unreadable (error : ReadError)
  /-- The text is not a document, or something in it has the wrong type. -/
  | malformed
  /-- An array that would be stored under the key contains a table. -/
  | tableInArray (key : Text)
  deriving DecidableEq, Repr

namespace FileError

/-- What is wrong with the value that is refused. -/
def tableInArrayDetail : Text := "tables inside arrays are not supported".toList

/-- The wording of an error. What exactly is wrong with a document is not told. -/
def message : FileError → Text
  | .unreadable error => "Failed to read configuration file: ".toList ++ error.message
  | .malformed => "Failed to parse configuration TOML: ".toList
  | .tableInArray key =>
    "Invalid configuration value for '".toList ++ key ++ "': ".toList ++ tableInArrayDetail

/-- The wording of an error where it is one among others. -/
def longMessage (e : FileError) : Text := "configuration error: ".toList ++ e.message

end FileError

/-! ### Flat tables -/

namespace Flat

mutual

/-- The text that is stored for a value; nothing for a table, or an array with a table in it. -/
def text? : Toml.Value → Option Text
  | .string t => some t
  | .integer n => some (signedNumeral n)
  | .float x => some x.toText
  | .boolean b => some (boolText b)
  | .moment m => some m.toText
  | .array items => (texts? items).map (Text.join [','])
  | .table _ => none

/-- The texts that are stored for the items of an array. -/
def texts? : List Toml.Value → Option (List Text)
  | [] => some []
  | item :: items =>
    match text? item, texts? items with
    | some t, some ts => some (t :: ts)
    | _, _ => none

end

/-- The key of a name inside the table with the key `outer`; names of the outermost
table stand alone. -/
def joinKey (outer name : Text) : Text := if outer = [] then name else outer ++ '.' :: name

mutual

/-- The keys and texts that a value under `key` gives, in order. -/
def valueEntries (key : Text) : Toml.Value → Except FileError (List (Text × Text))
  | .table entries => tableEntries key entries
  | .array items =>
    match text? (.array items) with
    | some t => .ok [(key, t)]
    | none => .error (.tableInArray key)
  | v => .ok [(key, (text? v).getD [])]

/-- The keys and texts that the entries of the table with the key `outer` give, in order. -/
def tableEntries (outer : Text) : List (Text × Toml.Value) → Except FileError (List (Text × Text))
  | [] => .ok []
  | (name, v) :: entries => do
    let first ← valueEntries (joinKey outer name) v
    let others ← tableEntries outer entries
    return first ++ others

end

end Flat

/-! ### Files -/

/-- A configuration file: a limit for the nesting of patterns, and values. -/
structure ConfigurationFile where
  /-- How many patterns may be taken inside each other. -/
  maxDepth : Option Nat
  /-- The values. -/
  values : Configuration
  deriving DecidableEq

namespace ConfigurationFile

/-- The file without any content. -/
def empty : ConfigurationFile := ⟨none, .empty⟩

/-- A limit: an integer that is not negative. -/
def limit? : Toml.Value → Option Nat
  | .integer (.ofNat n) => some n
  | _ => none

/-- The limit that the value of `processor` sets, if it has the right form: a table,
whose `max_depth` is a limit if it is there, or an array that begins with a limit. A
moment sets no limit. -/
def processorLimit? : Toml.Value → Option (Option Nat)
  | .table entries =>
    match entries.lookup "max_depth".toList with
    | none => some none
    | some v => (limit? v).map some
  | .array (v :: _) => (limit? v).map some
  | .moment _ => some none
  | _ => none

/-- The settled entries of the value of `values`, in the order of their keys, if it has the right
form. A moment counts as the table that stands for it. -/
def valuesTable? : Toml.Value → Option (List (Text × Toml.Value))
  | .table entries => (Toml.settledEntries? entries).map Toml.inKeyOrder
  | .moment m => some [(Toml.momentKey, .string m.toText)]
  | _ => none

/-- A value under a key that may be absent, read with `read`; `none` inside stands for an absent
key, nothing for a value of the wrong form. -/
def field? {α : Type} (entries : List (Text × Toml.Value)) (key : Text) (absent : α)
    (read : Toml.Value → Option α) : Option α :=
  match entries.lookup key with
  | none => some absent
  | some v => read v

/-- Read the text of a configuration file, where the program works in `folder`. -/
def ofText (folder : Option FilePath) (t : Text) : Except FileError ConfigurationFile :=
  match Toml.document? t with
  | none => .error .malformed
  | some entries =>
    match field? entries "processor".toList none processorLimit?,
      field? entries "values".toList [] valuesTable? with
    | some maxDepth, some values => do
      let flat ← Flat.tableEntries [] values
      return ⟨maxDepth, Configuration.ofValues folder (flat.map fun e => (e.1, .text e.2))⟩
    | _, _ => .error .malformed

/-- Read the bytes of a configuration file, where the program works in `folder`. -/
def ofBytes (folder : Option FilePath) (bytes : List UInt8) : Except FileError ConfigurationFile :=
  match Text.ofBytes? bytes with
  | none => .error (.unreadable .notUtf8)
  | some t => ofText folder t

/-- The record of a file that was read. -/
def loadedRecord (file : ConfigurationFile) (path : Text) : LogRecord :=
  ⟨.debug, .configuration,
    "loaded ".toList ++ numeral file.values.size ++ " configuration values from ".toList ++ path⟩

end ConfigurationFile

end Interpolation

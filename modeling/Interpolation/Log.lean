import Interpolation.Text.Controls

/-!
# Interpolation.Log

**Log records**: what the library notes about a run besides its result. Functions return their
records as data; only the command line decides which ones are shown.
-/

namespace Interpolation

/-- How much a record matters. -/
inductive LogLevel
  /-- Follows every step. -/
  | trace
  /-- Worth a look when a result surprises. -/
  | debug
  deriving DecidableEq, Repr

/-- The name of a level as records show it. -/
def LogLevel.label : LogLevel → Text
  | .trace => "TRACE".toList
  | .debug => "DEBUG".toList

/-- The part of the program that a record comes from. -/
inductive LogTopic
  /-- The command line. -/
  | program
  /-- Configurations and their files. -/
  | configuration
  /-- The expansion of templates. -/
  | expansion
  deriving DecidableEq, Repr

/-- The name of a topic as records show it. -/
def LogTopic.label : LogTopic → Text
  | .program => "text_processor".toList
  | .configuration => "text_processor::config".toList
  | .expansion => "text_processor::interpolate".toList

/-- One record. -/
structure LogRecord where
  /-- How much it matters. -/
  level : LogLevel
  /-- Where it comes from. -/
  topic : LogTopic
  /-- What it says. -/
  text : Text
  deriving DecidableEq, Repr

/-- The record without its topic. -/
def LogRecord.brief (r : LogRecord) : Text := r.level.label ++ ' ' :: r.text

/-- A text of several lines with blanks before all of them but the first. -/
def indented (t : Text) : Text := Text.join "\n    ".toList (t.splitOn '\n')

/-- The record as it stands in a log that is printed. Controls in it are left out. -/
def LogRecord.printed (r : LogRecord) : Text :=
  Text.withoutControls
    ('[' :: r.level.label ++ ' ' :: r.topic.label ++ "] ".toList ++ indented r.text ++ ['\n'])

end Interpolation

import Interpolation.Number.Numeral
import Interpolation.Template.Segment

/-!
# Interpolation.Diagnostic.Basic

**Findings** are what is wrong at a place of a template, as data; **diagnostics** are findings put
into words. A problem inside an argument is found at the placeholder that inserts the argument.
-/

namespace Interpolation

/-- How serious a diagnostic is. -/
inductive Severity
  /-- Part of the template is lost when it is expanded. -/
  | error
  /-- The template expands, but likely not as intended. -/
  | warning
  deriving DecidableEq, Repr

/-- The name of a severity. -/
def Severity.label : Severity → Text
  | .error => "error".toList
  | .warning => "warning".toList

/-- Something wrong with a template. -/
inductive Problem
  /-- A placeholder is never closed. -/
  | unterminated
  /-- A placeholder has no name. -/
  | emptyName
  /-- Nothing resolves the name of a placeholder. -/
  | unresolved (name : Text)
  /-- There is a problem in the text of the argument that the name inserts. -/
  | inArgument (name : Text) (problem : Problem)
  deriving DecidableEq, Repr

namespace Problem

/-- Only an unterminated placeholder loses text. -/
def severity : Problem → Severity
  | .unterminated => .error
  | .emptyName => .warning
  | .unresolved _ => .warning
  | .inArgument _ problem => problem.severity

/-- The wording of a problem. -/
def message : Problem → Text
  | .unterminated => "unterminated placeholder; the rest of the template is dropped".toList
  | .emptyName => "placeholder has an empty name".toList
  | .unresolved name => "unresolved placeholder '".toList ++ name ++ ['\'']
  | .inArgument name problem => "argument ".toList ++ name ++ ": ".toList ++ problem.message

end Problem

/-- A problem and where it is. -/
structure Finding where
  /-- What is wrong. -/
  problem : Problem
  /-- The bytes of the template that are concerned. -/
  span : Span
  deriving DecidableEq, Repr

/-- A message about a place of a text. -/
structure Diagnostic where
  /-- How serious it is. -/
  severity : Severity
  /-- The bytes that are concerned. -/
  span : Span
  /-- What to tell. -/
  message : Text
  deriving DecidableEq, Repr

/-- A finding in words. -/
def Finding.toDiagnostic (f : Finding) : Diagnostic :=
  ⟨f.problem.severity, f.span, f.problem.message⟩

namespace Diagnostic

/-- Is the diagnostic an error? -/
def isError (d : Diagnostic) : Bool := d.severity == .error

/-- The diagnostic on one line, with its place in bytes. -/
def toText (d : Diagnostic) : Text :=
  d.severity.label ++ " at ".toList ++ numeral d.span.start ++ "..".toList ++ numeral d.span.stop ++
    ": ".toList ++ d.message

end Diagnostic

end Interpolation

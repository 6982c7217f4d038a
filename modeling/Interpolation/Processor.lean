import Interpolation.Resolver

/-!
# Interpolation.Processor

The **processor** expands templates against the sources of this library, with one limit on
the nesting of patterns.

With arguments and a configuration there are two passes: arguments are substituted first, and what
comes out is read as a template again, whose names are configuration keys. An argument may
therefore bring in a placeholder.
-/

namespace Interpolation

/-- Why a template was not processed. -/
inductive ProcessError
  /-- There was no template. -/
  | templateAbsent
  /-- Patterns were nested deeper than the limit. -/
  | depthExceeded (limit : Nat)
  deriving DecidableEq, Repr

/-- The wording of an error. -/
def ProcessError.message : ProcessError → Text
  | .templateAbsent => "invalid argument: template must not be absent".toList
  | .depthExceeded limit =>
    "conditional patterns nested deeper than ".toList ++ numeral limit ++ " levels".toList

/-- The error of an expansion that cannot fail otherwise. -/
def ProcessError.ofHalt : Halt Empty → ProcessError
  | .tooDeep limit => .depthExceeded limit

/-- The settings of a processor. -/
structure Processor where
  /-- How many patterns may be taken inside each other; without a limit if absent. -/
  maxDepth : Option Nat
  deriving DecidableEq, Repr

namespace Processor

/-- Expand a template against a resolver. -/
def expand (p : Processor) (t : Text) (resolver : Resolver) : Run ProcessError Text :=
  (expandText resolver.total p.maxDepth t).mapError ProcessError.ofHalt

/-- Expand a template that may be absent. -/
def process (p : Processor) (t : Option Text) (resolver : Resolver) : Run ProcessError Text :=
  match t with
  | none => Run.fail .templateAbsent
  | some t => p.expand t resolver

/-- Expand configuration keys. -/
def processConfiguration (p : Processor) (t : Text) (c : Option Configuration) :
    Run ProcessError Text :=
  p.expand t (.configuration c)

/-- Expand positional arguments. -/
def processArguments (p : Processor) (t : Text) (args : List Value) : Run ProcessError Text :=
  p.expand t (.arguments args)

/-- Expand arguments, then configuration keys in the result. -/
def processBoth (p : Processor) (t : Text) (c : Option Configuration) (args : List Value) :
    Run ProcessError Text :=
  (p.processArguments t args).bind fun t' => p.processConfiguration t' c

/-- Expand paths from an object. -/
def processObject {ν : Type} [Navigable ν] (p : Processor) (t : Text) (root : Option ν) :
    Run ProcessError Text :=
  p.expand t (.object root)

/-- Expand names of a table of values. -/
def processMapping (p : Processor) (t : Text) (entries : Option (List (Text × Value))) :
    Run ProcessError Text :=
  p.expand t (.mapping entries)

end Processor

end Interpolation

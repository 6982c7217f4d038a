import Interpolation.Diagnostic.Basic
import Interpolation.Resolver

/-!
# Interpolation.Diagnostic.Check

**Checking** a template: finding the placeholders that an expansion would drop or leave as they
stand. Patterns are checked whether or not an expansion would take them.

`Template.findings` checks against one resolver. `Template.findingsInPasses` checks against the two
passes of a processor with arguments and a configuration: what the first pass leaves, pattern
included, is checked against the configuration alone, and so is the text of an argument.
-/

namespace Interpolation

namespace Template

/-- What is wrong with a placeholder itself, if anything. -/
def nameFindings (resolver : Resolver) (e : Expression) (span : Span) : List Finding :=
  if e.name = [] then [⟨.emptyName, span⟩]
  else if (resolver e.name).isNone then [⟨.unresolved e.name, span⟩]
  else []

/-- The findings of a template against one resolver, in the order of their places. -/
def findings (resolver : Resolver) : Template → List Finding
  | .done => []
  | .literal _ rest => rest.findings resolver
  | .placeholder e span rest => nameFindings resolver e span ++ rest.findings resolver
  | .conditional e span pattern rest =>
    nameFindings resolver e span ++ pattern.findings resolver ++ rest.findings resolver
  | .unterminated span rest => ⟨.unterminated, span⟩ :: rest.findings resolver

/-- The findings in the text of an argument, told at the placeholder that inserts it. -/
def argumentFindings (configuration : Resolver) (e : Expression) (span : Span) (text : Text) :
    List Finding :=
  ((ofText text).findings configuration).map fun f => ⟨.inArgument e.name f.problem, span⟩

/-- The findings of a template against an argument pass and a configuration pass after it. -/
def findingsInPasses (arguments configuration : Resolver) : Template → List Finding
  | .done => []
  | .literal _ rest => rest.findingsInPasses arguments configuration
  | .placeholder e span rest =>
    (if e.name = [] then [⟨.emptyName, span⟩]
      else match arguments e.name with
        | some text => argumentFindings configuration e span text
        | none => nameFindings configuration e span) ++
      rest.findingsInPasses arguments configuration
  | .conditional e span pattern rest =>
    let both := pattern.findingsInPasses arguments configuration
    (if e.name = [] then ⟨.emptyName, span⟩ :: both
      else match arguments e.name with
        | some _ => both
        | none =>
          match configuration e.name with
          | some _ => pattern.findings configuration
          | none => ⟨.unresolved e.name, span⟩ :: both) ++
      rest.findingsInPasses arguments configuration
  | .unterminated span rest =>
    ⟨.unterminated, span⟩ :: rest.findingsInPasses arguments configuration

end Template

/-- Check a template against a resolver. -/
def check (t : Text) (resolver : Resolver) : List Finding := (Template.ofText t).findings resolver

/-- Check a template the way a processor expands it with arguments and a configuration. -/
def checkBoth (t : Text) (c : Option Configuration) (args : List Value) : List Finding :=
  (Template.ofText t).findingsInPasses (.arguments args) (.configuration c)

end Interpolation

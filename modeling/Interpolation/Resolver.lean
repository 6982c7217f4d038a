import Interpolation.Configuration.Setting
import Interpolation.Expansion
import Interpolation.Navigation

/-!
# Interpolation.Resolver

**Resolvers**: the sources from which names get their replacements. A resolver that knows a name
answers with a text, possibly the empty one; `none` means that it does not know the name.

Names that are integers belong to positional arguments (`Resolver.arguments`), and no configuration
key of that form is ever found (`Resolver.configuration`). An integer here is a numeral of 32 bits;
longer ones are ordinary names.
-/

namespace Interpolation

/-- A source of replacements. -/
abbrev Resolver := Text → Option Text

/-- The integer that a name is, if it is one. -/
def index? (name : Text) : Option Int := (IntRange.signed 32).read? name

namespace Resolver

/-- A resolver as a lookup that never fails. -/
def total (r : Resolver) : Lookup Empty := fun name => .ok (r name)

/-- Positional arguments, by their index from zero. -/
def arguments (args : List Value) : Resolver := fun name =>
  match index? name with
  | some (.ofNat n) => args[n]?.map (Value.toText .commaSpace)
  | _ => none

/-- The keys of a configuration that may be absent. A key set to no value has the empty text. -/
def configuration (c : Option Configuration) : Resolver := fun name =>
  c.bind fun c =>
    if (index? name).isSome || !c.contains name then none else some (c.setting name).display

/-- The names of a table of values that may be absent. -/
def mapping (entries : Option (List (Text × Value))) : Resolver := fun name =>
  (entries.bind fun l => l.lookup name).map (Value.toText .commaSpace)

/-- Dotted paths from an object that may be absent. -/
def object {ν : Type} [Navigable ν] (root : Option ν) : Resolver := fun name =>
  (root.bind fun o => Navigable.follow? o (pathNames name)).map Found.text

end Resolver

end Interpolation

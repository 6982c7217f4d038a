import Interpolation.Value

/-!
# Interpolation.Navigation

**Navigation**: a dotted path leads from an object over other objects to a value.

Design points:

* What an object is made of does not matter, only what can be looked up on it (`Navigable`).
  Objects may lead to each other in circles, and have fields without number. The objects that
  values hold (`Object`) are trees.
* A field counts before every accessor, also where it is inherited and the accessor is not
  (`Navigable.lookup?`). The search ends because every object has finitely many ancestors,
  which `Navigable` asks for.
-/

namespace Interpolation

/-- What a name leads to. -/
inductive Found (ν : Type)
  /-- An object, from which a path can lead on. -/
  | object (o : ν)
  /-- A value that is no object. -/
  | value (v : Value)

/-- Objects of one kind, as far as they can be navigated. -/
class Navigable (ν : Type) where
  /-- The stored field with this name. -/
  field? : ν → Text → Option (Found ν)
  /-- The computed property with this name. -/
  accessor? : ν → Text → Option (Found ν)
  /-- The object whose fields and accessors an object inherits. -/
  parent? : ν → Option ν
  /-- The form in which an object is shown. -/
  shown : ν → Text
  /-- Going from parent to parent comes to an end. -/
  parents_end : WellFounded fun parent o => parent? o = some parent

namespace Navigable

variable {ν : Type} [Navigable ν]

/-- The object, its parent, the parent of that, and so on. -/
def chain (o : ν) : List ν :=
  o :: match _h : parent? o with
    | none => []
    | some parent => chain parent
termination_by parents_end.wrap o
decreasing_by exact _h

/-- Look up one name: the field of the nearest object of the chain that has one, and only if none
has, the accessor of the nearest that has one. -/
def lookup? (o : ν) (name : Text) : Option (Found ν) :=
  ((chain o).findSome? (field? · name)).or ((chain o).findSome? (accessor? · name))

/-- Follow a path of names: every name but the last has to lead to an object. -/
def follow? (o : ν) : List Text → Option (Found ν)
  | [] => none
  | [name] => lookup? o name
  | name :: names =>
    match lookup? o name with
    | some (.object inner) => follow? inner names
    | _ => none

end Navigable

/-- The text of what was found. -/
def Found.text {ν : Type} [Navigable ν] : Found ν → Text
  | .object o => Navigable.shown o
  | .value v => v.toText .commaSpace

/-! ### Objects of values -/

namespace Object

/-- The field with this name; of several the first. -/
def field? (name : Text) : Object → Option Value
  | .mk fields _ _ _ => fields.lookup name

/-- The accessor with this name; of several the first. -/
def accessor? (name : Text) : Object → Option Value
  | .mk _ accessors _ _ => accessors.lookup name

/-- The object whose fields and accessors an object inherits. -/
def parent? : Object → Option Object
  | .mk _ _ parent _ => parent

theorem sizeOf_lt_of_parent?_eq_some {o parent : Object} (h : o.parent? = some parent) :
    sizeOf parent < sizeOf o := by
  obtain ⟨fields, accessors, parent', shown⟩ := o
  cases h
  simp
  omega

end Object

/-- What a value is to a path. -/
def Value.found : Value → Found Object
  | .object o => .object o
  | v => .value v

instance : Navigable Object where
  field? o name := (o.field? name).map Value.found
  accessor? o name := (o.accessor? name).map Value.found
  parent? := Object.parent?
  shown := Object.shown
  parents_end := Subrelation.wf Object.sizeOf_lt_of_parent?_eq_some (measure sizeOf).wf

/-! ### Paths -/

/-- The names of a dotted path. A dot in first position parts nothing, so what follows
it is one name. -/
def pathNames (t : Text) : List Text :=
  match _h : t.cut '.' with
  | some (first, rest) => if first = [] then [t] else first :: pathNames rest
  | none => [t]
termination_by t.length
decreasing_by
  rw [(Text.eq_of_cut_eq_some _h).1]
  simp only [List.length_append, List.length_cons]
  omega

end Interpolation

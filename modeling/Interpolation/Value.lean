import Interpolation.DateTime
import Interpolation.FilePath
import Interpolation.Number.Shortest

/-!
# Interpolation.Value

The **values** that a placeholder can stand for, and their canonical text.

Design points:

* Integers are kept as 64-bit integers where they fit and as their numeral where they do not; both
  have the same text (`Value.ofInt`).
* An object is known by what can be looked up on it: its fields, its computed properties
  (accessors), the object whose fields it inherits (its parent), and the form in which it is shown.
  `Interpolation.Navigation` looks names up.
* Lists are flattened by their text: an item that is a list contributes its own items
  with the same separator.
-/

namespace Interpolation

mutual

/-- A value. -/
inductive Value
  /-- No value; its text is empty. -/
  | null
  /-- A truth value. -/
  | bool (b : Bool)
  /-- An integer of 64 bits. -/
  | int (n : Int64)
  /-- A number of the 64-bit floating-point format. -/
  | float (x : Binary)
  /-- A text. -/
  | text (t : Text)
  /-- A date and time. -/
  | dateTime (d : DateTime)
  /-- A path of a file. -/
  | path (p : FilePath)
  /-- A list of values. -/
  | list (items : List Value)
  /-- An object. -/
  | object (o : Object)

/-- An object: its stored fields and its accessors by name, its parent, and the form in
which it is shown. -/
inductive Object
  /-- An object with these parts. -/
  | mk (fields accessors : List (Text × Value)) (parent : Option Object) (shown : Text)

end

/-! ### Text -/

/-- What stands between the items of a list. -/
inductive Separator
  /-- A comma, as lists are stored in a configuration. -/
  | comma
  /-- A comma and a space, as lists are shown in a template. -/
  | commaSpace
  deriving DecidableEq, Repr

/-- The characters of a separator. -/
def Separator.toText : Separator → Text
  | .comma => [',']
  | .commaSpace => [',', ' ']

/-- The text of a truth value. -/
def boolText (b : Bool) : Text := if b then "true".toList else "false".toList

/-- The form in which an object is shown. -/
def Object.shown : Object → Text
  | .mk _ _ _ shown => shown

mutual

/-- The canonical text of a value. -/
def Value.toText (separator : Separator) : Value → Text
  | .null => []
  | .bool b => boolText b
  | .int n => signedNumeral n.toInt
  | .float x => x.toText
  | .text t => t
  | .dateTime d => d.toText
  | .path p => p.display
  | .list items => Text.join separator.toText (Value.toTexts separator items)
  | .object o => o.shown

/-- The canonical texts of the items of a list. -/
def Value.toTexts (separator : Separator) : List Value → List Text
  | [] => []
  | item :: items => item.toText separator :: Value.toTexts separator items

end

theorem Value.toTexts_eq_map (separator : Separator) (items : List Value) :
    Value.toTexts separator items = items.map (Value.toText separator) := by
  induction items with
  | nil => simp [Value.toTexts]
  | cons item items ih => simp [Value.toTexts, ih]

namespace Value

/-- The value of an integer of any size. -/
def ofInt (n : Int) : Value :=
  if (IntRange.signed 64).holds n then .int (Int64.ofInt n) else .text (signedNumeral n)

/-- The value that may be absent. -/
def ofOption : Option Value → Value
  | none => .null
  | some v => v

/-- Is there no value? -/
def isNull : Value → Bool
  | .null => true
  | _ => false

end Value

end Interpolation

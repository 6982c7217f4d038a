import Interpolation.Toml.Scalar

/-!
# Interpolation.Toml.Settled

**Settled values**: values as readers of a document see them, whatever order the document
has. The entries of a settled table stand in the order of their keys, and a table that stands
for a moment has become one.

Design points:

* A table stands for a moment if its first key is `momentKey`. Its value has to be a string
  that writes a moment, and the other entries do not count. In any other position the key
  is a key like all others.
* A string writes a moment the way a document does, without anything before or after it.
-/

namespace Interpolation.Toml

/-! ### Moments in strings -/

/-- The moment that a string writes from its beginning to its end. -/
def Moment.ofText? (t : Text) : Option Moment :=
  match moment t with
  | some (m, []) => some m
  | _ => none

/-- The first key of a table that stands for a moment. -/
def momentKey : Text := "$__toml_private_datetime".toList

/-- The value that writes the moment for which a table with these entries stands, if it
stands for one. -/
def momentEntry? : List (Text × Value) → Option Value
  | (key, v) :: _ => if key = momentKey then some v else none
  | [] => none

/-- The moment that a value writes. -/
def Value.toMoment? : Value → Option Moment
  | .string t => Moment.ofText? t
  | _ => none

/-! ### Settling -/

/-- The entries with one more, in front of the first whose key does not come before its own. -/
def insertInOrder (e : Text × Value) : List (Text × Value) → List (Text × Value)
  | [] => [e]
  | other :: entries =>
    if other.1 < e.1 then other :: insertInOrder e entries else e :: other :: entries

/-- Entries in the order of their keys. -/
def inKeyOrder (entries : List (Text × Value)) : List (Text × Value) :=
  entries.foldr insertInOrder []

mutual

/-- The value settled; nothing if a table in it stands for a moment that is not written
correctly. -/
def Value.settled? : Value → Option Value
  | .array items => (settledItems? items).map .array
  | .table entries =>
    match momentEntry? entries with
    | some v => v.toMoment?.map .moment
    | none => (settledEntries? entries).map fun entries => .table (inKeyOrder entries)
  | v => some v

/-- The items of an array, settled. -/
def settledItems? : List Value → Option (List Value)
  | [] => some []
  | v :: items =>
    match v.settled?, settledItems? items with
    | some v, some items => some (v :: items)
    | _, _ => none

/-- The entries of a table with settled values, in their old order. -/
def settledEntries? : List (Text × Value) → Option (List (Text × Value))
  | [] => some []
  | (key, v) :: entries =>
    match v.settled?, settledEntries? entries with
    | some v, some entries => some ((key, v) :: entries)
    | _, _ => none

end

end Interpolation.Toml

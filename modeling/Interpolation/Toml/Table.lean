import Interpolation.Toml.Value

/-!
# Interpolation.Toml.Table

The **tables of a document while it is read**. The statements of a document may add to a table in
several places, and which of these additions are allowed depends on how the table came about; a
finished value no longer knows that.

Design points:

* A table is *implicit* until a header of its own names it, and *dotted* if a key with dots brought
  it about. Dotted keys may only add to implicit tables, and only to dotted ones put something
  directly; a header may name an implicit table that is not dotted once.
* An array of tables is extended by headers alone, and a path through it leads to its last table.
* Values are closed: no path leads into a table or an array that was written as a value.
* Entries keep their order; a key stands where it was brought up first, or where the
  header of its table stands.
-/

namespace Interpolation.Toml

mutual

/-- What stands under a key of a table that is being read. -/
inductive Item
  /-- A value. -/
  | value (v : Value)
  /-- A table that a header or a dotted key brought about. -/
  | table (t : OpenTable)
  /-- The tables that headers of an array of tables brought about. -/
  | tables (ts : List OpenTable)

/-- A table that is being read: whether no header names it, whether a dotted key brought it
about, and its entries. -/
inductive OpenTable
  /-- A table with these parts. -/
  | mk (implicit dotted : Bool) (entries : List (Text × Item))

end

namespace OpenTable

/-- A table without entries. -/
def new (implicit dotted : Bool) : OpenTable := .mk implicit dotted []

/-- Does no header name the table? -/
def isImplicit : OpenTable → Bool
  | .mk implicit _ _ => implicit

/-- Did a dotted key bring the table about? -/
def isDotted : OpenTable → Bool
  | .mk _ dotted _ => dotted

/-- The entries of the table. -/
def entries : OpenTable → List (Text × Item)
  | .mk _ _ entries => entries

/-- The table, named by a header of its own. -/
def declared (t : OpenTable) : OpenTable := .mk false false t.entries

/-- The item under a key. -/
def get? (t : OpenTable) (key : Text) : Option Item := t.entries.lookup key

/-- The table without a key. -/
def erase (t : OpenTable) (key : Text) : OpenTable :=
  .mk t.isImplicit t.isDotted (t.entries.filter fun e => e.1 ≠ key)

/-- The entries with an item under a key, in place of the one that was there, or else at the end. -/
def putEntry (key : Text) (item : Item) : List (Text × Item) → List (Text × Item)
  | [] => [(key, item)]
  | entry :: entries =>
    if entry.1 = key then (key, item) :: entries else entry :: putEntry key item entries

/-- The table with an item under a key. -/
def put (t : OpenTable) (key : Text) (item : Item) : OpenTable :=
  .mk t.isImplicit t.isDotted (putEntry key item t.entries)

/-- Change the table at the end of a path, making the tables on the way that are not
there. Nothing if the path leads through a value, or, for a dotted key, through a table
with a header of its own. -/
def update {α : Type} (dotted : Bool) (change : OpenTable → Option (OpenTable × α)) :
    List Text → OpenTable → Option (OpenTable × α)
  | [], t => change t
  | key :: path, t =>
    let descend (child : OpenTable) (item : OpenTable → Item) : Option (OpenTable × α) :=
      (update dotted change path child).map fun p => (t.put key (item p.1), p.2)
    match t.get? key with
    | none => descend (new true dotted) .table
    | some (.value _) => none
    | some (.table child) => if dotted && !child.isImplicit then none else descend child .table
    | some (.tables ts) =>
      match ts.getLast? with
      | none => none
      | some last => descend last fun child => .tables (ts.dropLast ++ [child])

/-- Put a value under a key. A key stands only once, and a key without dots does not add to a dotted
table, nor a dotted key directly to one that is not. -/
def assign (t : OpenTable) (path : List Text) (v : Value) : Option OpenTable :=
  match path.getLast? with
  | none => none
  | some key =>
    let parents := path.dropLast
    (update true (fun child =>
        if child.isDotted == parents.isEmpty || (child.get? key).isSome then none
        else some (child.put key (.value v), ())) parents t).map Prod.fst

end OpenTable

/-! ### Finished tables -/

mutual

/-- The value of an item. -/
def Item.toValue : Item → Value
  | .value v => v
  | .table t => t.toValue
  | .tables ts => .array (OpenTable.toValues ts)

/-- The value of a table. -/
def OpenTable.toValue : OpenTable → Value
  | .mk _ _ entries => .table (OpenTable.entryValues entries)

/-- The values of the tables of an array. -/
def OpenTable.toValues : List OpenTable → List Value
  | [] => []
  | t :: ts => t.toValue :: OpenTable.toValues ts

/-- The entries of a table with the values of their items. -/
def OpenTable.entryValues : List (Text × Item) → List (Text × Value)
  | [] => []
  | (key, item) :: entries => (key, item.toValue) :: OpenTable.entryValues entries

end

end Interpolation.Toml

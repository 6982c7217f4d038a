import Interpolation.Toml.Scalar
import Interpolation.Toml.Table

/-!
# Interpolation.Toml.Document

A **document** is a sequence of statements: keys with values, and headers that say which table the
keys after them belong to. Reading takes the text apart into statements first and then builds the
tables, so the grammar does not depend on which additions to a table are allowed
(`Interpolation.Toml.Table`).
-/

namespace Interpolation.Toml

/-! ### Values -/

/-- Take the items of an array and the closing bracket. A comma may stand after the last item. -/
def arrayRest (item : Reader Value) : Reader (List Value) := fun t =>
  let spaced : Reader Value := do
    layout
    let v ← item
    layout
    return v
  let items := spaced.separated ',' t
  let close : Reader Unit := do
    if !items.1.isEmpty then
      let _ ← (Reader.mark ',').optional
    layout
    Reader.mark ']'
  (close items.2).map fun p => (items.1, p.2)

/-- Take the keys and values of an inline table and the closing brace; no comma stands
after the last value. -/
def inlineRest (item : Reader Value) : Reader Value := fun t =>
  let assignment : Reader (List Text × Value) := do
    let path ← key
    Reader.mark '='
    spaces
    let v ← item
    spaces
    return (path, v)
  let assignments := assignment.separated ',' t
  let close : Reader Unit := do
    spaces
    Reader.mark '}'
  match assignments.1.foldlM (fun table a => table.assign a.1 a.2) (OpenTable.new false false) with
  | none => none
  | some table => (close assignments.2).map fun p => (table.toValue, p.2)

/-- Take a value in which arrays and inline tables are at most `depth` deep inside each other. -/
def value : (depth : Nat) → Reader Value
  | 0 => scalar
  | depth + 1 => fun t =>
    match t with
    | '[' :: rest => (arrayRest (value depth) rest).map fun p => (.array p.1, p.2)
    | '{' :: rest => inlineRest (value depth) rest
    | _ => scalar t

/-- Arrays and inline tables may be this deep inside each other. -/
def depthLimit : Nat := 79

/-! ### Statements -/

/-- One statement of a document. -/
inductive Statement
  /-- An empty line or a comment. -/
  | blank
  /-- A key with a value. -/
  | assignment (path : List Text) (v : Value)
  /-- The header of a table. -/
  | header (path : List Text)
  /-- The header of a table of an array of tables. -/
  | arrayHeader (path : List Text)

/-- Take a statement and the end of its line. -/
def statement : Reader Statement := fun t =>
  match t with
  | [] => none
  | '#' :: _ => (lineRest t).map fun p => (.blank, p.2)
  | '\n' :: _ => (lineEnd t).map fun p => (.blank, p.2)
  | '\r' :: _ => (lineEnd t).map fun p => (.blank, p.2)
  | '[' :: '[' :: rest =>
    (do
      let path ← key
      Reader.word [']', ']']
      lineRest
      return Statement.arrayHeader path : Reader Statement) rest
  | '[' :: rest =>
    (do
      let path ← key
      Reader.mark ']'
      lineRest
      return Statement.header path : Reader Statement) rest
  | _ =>
    (do
      let path ← key
      Reader.mark '='
      spaces
      let v ← value depthLimit
      lineRest
      return Statement.assignment path v : Reader Statement) t

/-- The statements of a text; nothing if it cannot be taken apart. -/
def statements? (t : Text) : Option (List Statement) :=
  let t' := t.dropWhile isSpace
  if t' = [] then some []
  else match statement t' with
    | none => none
    | some (s, rest) =>
      if _h : rest.length < t.length then (statements? rest).map (s :: ·) else none
termination_by t.length
decreasing_by exact _h

/-! ### Building the tables -/

/-- A document while it is read: its tables, and the table that keys are added to at present with
its path. The path is empty before the first header. -/
structure Draft where
  /-- The tables that are finished. -/
  root : OpenTable
  /-- The table that keys are added to. -/
  current : OpenTable
  /-- Where the table belongs. -/
  path : List Text
  /-- Does the table belong to an array of tables? -/
  inArray : Bool

namespace Draft

/-- The draft of an empty document. -/
def new : Draft := ⟨.new false false, .new false false, [], false⟩

/-- Put the current table where it belongs. -/
def close (d : Draft) : Option OpenTable :=
  match d.path.getLast? with
  | none => some d.current
  | some key =>
    (OpenTable.update false (fun parent =>
        match parent.get? key with
        | none =>
          some (parent.put key (if d.inArray then .tables [d.current] else .table d.current), ())
        | some (.tables ts) =>
          if d.inArray then some (parent.put key (.tables (ts ++ [d.current])), ()) else none
        | some (.table t) =>
          if d.inArray || !t.isImplicit then none else some (parent.put key (.table d.current), ())
        | some (.value _) => none) d.path.dropLast d.root).map Prod.fst

/-- Begin the table that a header names. An implicit table becomes the current one with
what is in it. -/
def openTable (root : OpenTable) (path : List Text) : Option Draft :=
  match path.getLast? with
  | none => none
  | some key =>
    (OpenTable.update false (fun parent =>
        match parent.get? key with
        | none => some (parent, OpenTable.new false false)
        | some (.table t) =>
          if t.isImplicit && !t.isDotted then some (parent.erase key, t.declared) else none
        | some _ => none) path.dropLast root).map fun p => ⟨p.1, p.2, path, false⟩

/-- Begin a table of the array of tables that a header names. -/
def openArrayTable (root : OpenTable) (path : List Text) : Option Draft :=
  match path.getLast? with
  | none => none
  | some key =>
    (OpenTable.update false (fun parent =>
        match parent.get? key with
        | none => some (parent.put key (.tables []), ())
        | some (.tables _) => some (parent, ())
        | some _ => none) path.dropLast root).map fun p => ⟨p.1, .new false false, path, true⟩

/-- The draft after one more statement. -/
def step (d : Draft) : Statement → Option Draft
  | .blank => some d
  | .assignment path v => (d.current.assign path v).map fun current => { d with current }
  | .header path => d.close.bind fun root => openTable root path
  | .arrayHeader path => d.close.bind fun root => openArrayTable root path

end Draft

/-- The table of a document; nothing if the text is not a document. A byte order mark at the
beginning does not count. -/
def document? (t : Text) : Option (List (Text × Value)) :=
  let t' := if t.head? = some (Char.ofNat 0xFEFF) then t.tail else t
  (statements? t').bind fun l =>
    (l.foldlM Draft.step Draft.new).bind fun d =>
      d.close.map fun root => OpenTable.entryValues root.entries

end Interpolation.Toml

import Interpolation.Value

/-!
# Interpolation.Configuration.Basic

A **configuration**: text values under text keys. A key can be unset, set to a text, or set to no
value at all; the last is remembered, and it overrides a text when configurations are merged.

Design points:

* The entries are kept in strictly increasing order of their keys, and the type says so. Two
  configurations with the same contents are therefore equal, and listing the keys needs no sorting.
* Values enter in their canonical text (`Value.stored`), so a configuration knows nothing of types.
  What a text means is asked of it later (`Interpolation.Configuration.Setting`).
-/

namespace Interpolation

/-- Is the first key before the second? -/
def keyBefore (a b : Text × Option Text) : Prop := a.1 < b.1

/-- A configuration. -/
structure Configuration where
  /-- The entries in the order of their keys. -/
  entries : List (Text × Option Text)
  /-- No key stands twice, and none out of order. -/
  sorted : entries.Pairwise keyBefore

namespace Configuration

@[ext] theorem ext {c d : Configuration} (h : c.entries = d.entries) : c = d := by
  cases c
  cases d
  cases h
  rfl

instance : DecidableEq Configuration := fun c d =>
  if h : c.entries = d.entries then isTrue (ext h) else isFalse fun e => h (congrArg entries e)

/-- The configuration without entries. -/
def empty : Configuration := ⟨[], List.Pairwise.nil⟩

/-! ### Changing entries -/

/-- Put a value under a key of a sorted list of entries. -/
def insertEntry (key : Text) (value : Option Text) :
    List (Text × Option Text) → List (Text × Option Text)
  | [] => [(key, value)]
  | entry :: rest =>
    if key < entry.1 then (key, value) :: entry :: rest
    else if key = entry.1 then (key, value) :: rest
    else entry :: insertEntry key value rest

/-- The keys of the list are those it had and the new one. -/
theorem mem_insertEntry {key : Text} {value : Option Text} {l : List (Text × Option Text)}
    {e : Text × Option Text} (h : e ∈ insertEntry key value l) : e = (key, value) ∨ e ∈ l := by
  induction l with
  | nil => exact Or.inl (by simpa [insertEntry] using h)
  | cons entry rest ih =>
    rw [insertEntry] at h
    split at h
    · simpa using h
    · split at h
      · rcases List.mem_cons.1 h with h | h
        · exact Or.inl h
        · exact Or.inr (List.mem_cons_of_mem _ h)
      · rcases List.mem_cons.1 h with h | h
        · exact Or.inr (h ▸ List.mem_cons_self)
        · rcases ih h with h | h
          · exact Or.inl h
          · exact Or.inr (List.mem_cons_of_mem _ h)

/-- Putting a value keeps the order. -/
theorem pairwise_insertEntry {key : Text} {value : Option Text} {l : List (Text × Option Text)}
    (h : l.Pairwise keyBefore) : (insertEntry key value l).Pairwise keyBefore := by
  induction l with
  | nil => simp [insertEntry]
  | cons entry rest ih =>
    have hhead := (List.pairwise_cons.1 h).1
    have htail := (List.pairwise_cons.1 h).2
    rw [insertEntry]
    split
    · rename_i hlt
      refine List.pairwise_cons.2 ⟨fun e he => ?_, h⟩
      rcases List.mem_cons.1 he with he | he
      · exact he ▸ hlt
      · exact List.lt_trans hlt (hhead e he)
    · rename_i hnlt
      split
      · rename_i heq
        refine List.pairwise_cons.2 ⟨fun e he => ?_, htail⟩
        have := hhead e he
        simpa [keyBefore, heq] using this
      · rename_i hne
        refine List.pairwise_cons.2 ⟨fun e he => ?_, ih htail⟩
        rcases mem_insertEntry he with he | he
        · rw [he]
          rcases List.le_iff_lt_or_eq.1 (List.not_lt.1 hnlt) with hlt | heq
          · exact hlt
          · exact absurd heq.symm hne
        · exact hhead e he

/-- Store a text, or no value, under a key. -/
def insert (c : Configuration) (key : Text) (value : Option Text) : Configuration :=
  ⟨insertEntry key value c.entries, pairwise_insertEntry c.sorted⟩

/-- Take a key out. -/
def erase (c : Configuration) (key : Text) : Configuration :=
  ⟨c.entries.filter fun e => e.1 ≠ key, c.sorted.filter _⟩

/-- Copy every entry of `other` over this configuration. -/
def merge (c other : Configuration) : Configuration :=
  other.entries.foldl (fun c e => c.insert e.1 e.2) c

/-! ### Reading entries -/

/-- What is stored under a key: nothing if it is unset, `some none` if it is set to no value. -/
def get? (c : Configuration) (key : Text) : Option (Option Text) := c.entries.lookup key

/-- Has the key been set, even to no value? -/
def contains (c : Configuration) (key : Text) : Bool := (c.get? key).isSome

/-- The keys in increasing order. -/
def keys (c : Configuration) : List Text := c.entries.map Prod.fst

/-- The number of keys that are set. -/
def size (c : Configuration) : Nat := c.entries.length

/-- Is no key set? -/
def isEmpty (c : Configuration) : Bool := c.entries.isEmpty

/-- Take a key out, and tell whether it was set. -/
def remove (c : Configuration) (key : Text) : Configuration × Bool := (c.erase key, c.contains key)

end Configuration

/-! ### Values -/

/-- The text that a configuration stores for a value: none for no value, the absolute form of a path
where it has one, lists with commas and no spaces. The program works in `folder`. -/
def Value.stored (folder : Option FilePath) : Value → Option Text
  | .null => none
  | .path p => some ((p.absolute? folder).getD p).display
  | v => some (v.toText .comma)

/-- Store a value in its canonical text. -/
def Configuration.setValue (c : Configuration) (folder : Option FilePath) (key : Text) (v : Value) :
    Configuration :=
  c.insert key (v.stored folder)

/-- The configuration with these values, each one stored over those before it. -/
def Configuration.ofValues (folder : Option FilePath) (values : List (Text × Value)) :
    Configuration :=
  values.foldl (fun c e => c.setValue folder e.1 e.2) .empty

end Interpolation

import Interpolation.Proofs.ByteOrder
import Interpolation.Proofs.DocumentValues
import Interpolation.Toml.Settled

/-!
# Interpolation.Proofs.TableLeaves

**The leaves of nested tables**: the values that are no tables, each with the names on
the way to it.

`tableLeaves` lists them depth first. Settling a document puts the names of every table in order
(`throughout_settled`), and then the listing is the one in lexicographic order of the paths, names
compared by their bytes (`traverses_tableLeaves`). In particular no path stands twice.
-/

namespace Interpolation.Toml

/-! ### Induction on values -/

/-- What holds of a value if it holds of the items of an array, and of the values of a table. -/
@[elab_as_elim]
theorem Value.inductionOnParts {motive : Value → Prop} (v : Value)
    (plain : ∀ v : Value, v.HasNoParts → motive v)
    (array : ∀ items : List Value, (∀ v ∈ items, motive v) → motive (.array items))
    (table : ∀ entries : List (Text × Value), (∀ e ∈ entries, motive e.2) →
      motive (.table entries)) : motive v :=
  Value.rec (motive_1 := motive) (motive_2 := fun items => ∀ v ∈ items, motive v)
    (motive_3 := fun entries => ∀ e ∈ entries, motive e.2) (motive_4 := fun e => motive e.2)
    (fun _ => plain _ trivial) (fun _ => plain _ trivial) (fun _ => plain _ trivial)
    (fun _ => plain _ trivial) (fun _ => plain _ trivial) array table
    nofun (fun _ _ hv hitems => List.forall_mem_cons.2 ⟨hv, hitems⟩)
    nofun (fun _ _ he hentries => List.forall_mem_cons.2 ⟨he, hentries⟩)
    (fun _ _ hv => hv) v

/-! ### Settled tables -/

/-- What a settled value guarantees, its parts apart: the keys of a table are in order, an
integer fits into 64 bits. -/
def Value.Settled : Value → Prop
  | .integer n => (IntRange.signed 64).holds n
  | .table entries => entries.Pairwise fun a b => a.1 < b.1
  | _ => True

theorem perm_insertInOrder (e : Text × Value) (entries : List (Text × Value)) :
    (insertInOrder e entries).Perm (e :: entries) := by
  induction entries with
  | nil => exact .refl _
  | cons other entries ih =>
    rw [insertInOrder]
    split
    · exact (ih.cons other).trans (.swap e other entries)
    · exact .refl _

theorem perm_inKeyOrder (entries : List (Text × Value)) : (inKeyOrder entries).Perm entries := by
  induction entries with
  | nil => exact .refl _
  | cons e entries ih => exact (perm_insertInOrder e (inKeyOrder entries)).trans (ih.cons e)

theorem mem_inKeyOrder {entries : List (Text × Value)} {e : Text × Value} :
    e ∈ inKeyOrder entries ↔ e ∈ entries :=
  (perm_inKeyOrder entries).mem_iff

/-- A key that is not there yet finds its place between those before and those behind it. -/
theorem pairwise_insertInOrder {e : Text × Value} {entries : List (Text × Value)}
    (h : entries.Pairwise fun a b => a.1 < b.1) (hnew : ∀ other ∈ entries, other.1 ≠ e.1) :
    (insertInOrder e entries).Pairwise fun a b => a.1 < b.1 := by
  induction entries with
  | nil => exact List.pairwise_singleton _ _
  | cons other entries ih =>
    obtain ⟨hfirst, hothers⟩ := List.pairwise_cons.1 h
    obtain ⟨hne, hnew⟩ := List.forall_mem_cons.1 hnew
    rw [insertInOrder]
    split
    · rename_i hbefore
      refine List.pairwise_cons.2 ⟨fun e' he' => ?_, ih hothers hnew⟩
      rcases List.mem_cons.1 ((perm_insertInOrder e entries).mem_iff.1 he') with rfl | he'
      · exact hbefore
      · exact hfirst e' he'
    · rename_i hnot
      have hbefore : e.1 < other.1 :=
        (List.le_iff_lt_or_eq.1 (List.not_lt.1 hnot)).resolve_right (Ne.symm hne)
      refine List.pairwise_cons.2 ⟨fun e' he' => ?_, h⟩
      rcases List.mem_cons.1 he' with rfl | he'
      · exact hbefore
      · exact List.lt_trans hbefore (hfirst e' he')

theorem pairwise_inKeyOrder {entries : List (Text × Value)} (h : (entries.map Prod.fst).Nodup) :
    (inKeyOrder entries).Pairwise fun a b => a.1 < b.1 := by
  induction entries with
  | nil => exact List.Pairwise.nil
  | cons e entries ih =>
    obtain ⟨hnew, hothers⟩ := List.nodup_cons.1 h
    refine pairwise_insertInOrder (ih hothers) fun other hother heq => hnew ?_
    exact heq ▸ List.mem_map_of_mem (mem_inKeyOrder.1 hother)

theorem keys_of_settledEntries_eq_some {entries entries' : List (Text × Value)}
    (h : settledEntries? entries = some entries') :
    entries'.map Prod.fst = entries.map Prod.fst := by
  induction entries generalizing entries' with
  | nil =>
    cases h
    rfl
  | cons e entries ih =>
    rw [settledEntries?] at h
    split at h
    · rename_i hentries
      cases h
      rw [List.map_cons, List.map_cons, ih hentries]
    · cases h

theorem exists_of_mem_settledEntries {entries entries' : List (Text × Value)}
    (h : settledEntries? entries = some entries') {e' : Text × Value} (he' : e' ∈ entries') :
    ∃ e ∈ entries, e.2.settled? = some e'.2 := by
  induction entries generalizing entries' with
  | nil =>
    cases h
    cases he'
  | cons e entries ih =>
    rw [settledEntries?] at h
    split at h
    · rename_i v entries'' hv hentries
      cases h
      rcases List.mem_cons.1 he' with rfl | he'
      · exact ⟨e, List.mem_cons_self, hv⟩
      · obtain ⟨e'', he'', hsettled⟩ := ih hentries he'
        exact ⟨e'', List.mem_cons_of_mem _ he'', hsettled⟩
    · cases h

theorem exists_of_mem_settledItems {items items' : List Value}
    (h : settledItems? items = some items') {v' : Value} (hv' : v' ∈ items') :
    ∃ v ∈ items, v.settled? = some v' := by
  induction items generalizing items' with
  | nil =>
    cases h
    cases hv'
  | cons v items ih =>
    rw [settledItems?] at h
    split at h
    · rename_i w items'' hw hitems
      cases h
      rcases List.mem_cons.1 hv' with rfl | hv'
      · exact ⟨v, List.mem_cons_self, hw⟩
      · obtain ⟨v'', hv'', hsettled⟩ := ih hitems hv'
        exact ⟨v'', List.mem_cons_of_mem _ hv'', hsettled⟩
    · cases h

theorem throughout_settled_of_entries {entries entries' : List (Text × Value)}
    (h : settledEntries? entries = some entries') (hkeys : (entries.map Prod.fst).Nodup)
    (hvalues : ∀ e ∈ entries, ∀ v', e.2.settled? = some v' → Throughout Value.Settled v') :
    Throughout Value.Settled (.table (inKeyOrder entries')) := by
  refine throughout_table_iff.2 ⟨pairwise_inKeyOrder (keys_of_settledEntries_eq_some h ▸ hkeys),
    fun e' he' => ?_⟩
  obtain ⟨e, he, hsettled⟩ := exists_of_mem_settledEntries h (mem_inKeyOrder.1 he')
  exact hvalues e he e'.2 hsettled

/-- **Settling puts every table in order.** -/
theorem throughout_settled {v v' : Value} (h : v.settled? = some v')
    (hv : Throughout Value.Regular v) : Throughout Value.Settled v' := by
  induction v using Value.inductionOnParts generalizing v' with
  | plain v hplain =>
    have hv' : v' = v := by
      rw [Value.settled?.eq_3 v hplain.ne_array hplain.ne_table] at h
      exact (Option.some.inj h).symm
    rw [hv']
    refine throughout_of_hasNoParts hplain ?_
    cases v with
    | integer n => exact hv _ .self
    | table entries => exact hplain.elim
    | _ => trivial
  | array items ih =>
    rw [Value.settled?] at h
    obtain ⟨items', hitems', rfl⟩ := Option.map_eq_some_iff.1 h
    refine throughout_array_iff.2 ⟨trivial, fun v' hv' => ?_⟩
    obtain ⟨v, hmem, hsettled⟩ := exists_of_mem_settledItems hitems' hv'
    exact ih v hmem hsettled ((throughout_array_iff.1 hv).2 v hmem)
  | table entries ih =>
    obtain ⟨hkeys, hvalues⟩ := throughout_table_iff.1 hv
    rw [Value.settled?] at h
    split at h
    · obtain ⟨m, -, rfl⟩ := Option.map_eq_some_iff.1 h
      exact throughout_of_hasNoParts trivial trivial
    · obtain ⟨entries', hentries', rfl⟩ := Option.map_eq_some_iff.1 h
      exact throughout_settled_of_entries hentries' hkeys fun e he v' hsettled =>
        ih e he hsettled (hvalues e he)

/-! ### Leaves -/

/-- A value in nested tables that is no table itself, with the names on the way to it. -/
structure Leaf where
  /-- The names from the outermost table to the value. -/
  path : List Text
  /-- The value. -/
  value : Value

/-- The leaf, seen from the table around the one in which its path begins. -/
def Leaf.under (name : Text) (l : Leaf) : Leaf := ⟨name :: l.path, l.value⟩

mutual

/-- The leaves of a value, depth first. What is no table is its own only leaf. -/
def Value.leaves : Value → List Leaf
  | .table entries => tableLeaves entries
  | v => [⟨[], v⟩]

/-- The leaves of a table with these entries, depth first. -/
def tableLeaves : List (Text × Value) → List Leaf
  | [] => []
  | (name, v) :: entries => v.leaves.map (Leaf.under name) ++ tableLeaves entries

end

theorem Value.leaves_of_not_table {v : Value} (h : ∀ entries, v ≠ .table entries) :
    v.leaves = [⟨[], v⟩] :=
  Value.leaves.eq_2 v h

/-- The path leads to the value, over tables only, and the value is no table. -/
inductive LeafAt : List (Text × Value) → List Text → Value → Prop
  /-- The value stands in the table itself. -/
  | here {entries : List (Text × Value)} {name : Text} {v : Value} (he : (name, v) ∈ entries)
    (hv : ∀ inner, v ≠ .table inner) : LeafAt entries [name] v
  /-- The value stands in a table of the table. -/
  | under {entries inner : List (Text × Value)} {name : Text} {path : List Text} {v : Value}
    (he : (name, .table inner) ∈ entries) (h : LeafAt inner path v) :
    LeafAt entries (name :: path) v

theorem mem_tableLeaves {entries : List (Text × Value)} {l : Leaf} :
    l ∈ tableLeaves entries ↔ ∃ e ∈ entries, ∃ l' ∈ e.2.leaves, l'.under e.1 = l := by
  induction entries with
  | nil => simp [tableLeaves]
  | cons e entries ih =>
    rw [tableLeaves, List.mem_append, List.mem_map, ih]
    simp only [List.mem_cons, exists_eq_or_imp]

theorem leafAt_of_mem_tableLeaves {entries : List (Text × Value)} {l : Leaf}
    (h : l ∈ tableLeaves entries) : LeafAt entries l.path l.value := by
  -- The induction is on the table as a value: its entries are smaller, not its list of entries.
  suffices hvalue : ∀ (v : Value) (entries : List (Text × Value)), v = .table entries →
      ∀ l ∈ tableLeaves entries, LeafAt entries l.path l.value from hvalue _ entries rfl l h
  intro v
  induction v using Value.inductionOnParts with
  | plain v hplain =>
    intro entries heq
    exact absurd heq (hplain.ne_table entries)
  | array items ih =>
    intro entries heq
    cases heq
  | table entries ih =>
    intro entries' heq l hl
    cases heq
    obtain ⟨⟨name, v⟩, he, l', hl', rfl⟩ := mem_tableLeaves.1 hl
    by_cases htable : ∃ inner, v = .table inner
    · obtain ⟨inner, rfl⟩ := htable
      rw [Value.leaves] at hl'
      exact .under he (ih _ he inner rfl l' hl')
    · have hnot := not_exists.1 htable
      rw [Value.leaves_of_not_table hnot] at hl'
      cases List.mem_singleton.1 hl'
      exact .here he hnot

theorem mem_tableLeaves_of_leafAt {entries : List (Text × Value)} {path : List Text} {v : Value}
    (h : LeafAt entries path v) : ⟨path, v⟩ ∈ tableLeaves entries := by
  induction h with
  | here he hv =>
    refine mem_tableLeaves.2 ⟨_, he, ⟨[], _⟩, ?_, rfl⟩
    rw [Value.leaves_of_not_table hv]
    exact List.mem_singleton_self _
  | under he _ ih =>
    refine mem_tableLeaves.2 ⟨_, he, ⟨_, _⟩, ?_, rfl⟩
    rw [Value.leaves]
    exact ih

theorem mem_tableLeaves_iff {entries : List (Text × Value)} {l : Leaf} :
    l ∈ tableLeaves entries ↔ LeafAt entries l.path l.value :=
  ⟨leafAt_of_mem_tableLeaves, mem_tableLeaves_of_leafAt⟩

theorem LeafAt.path_ne_nil {entries : List (Text × Value)} {path : List Text} {v : Value}
    (h : LeafAt entries path v) : path ≠ [] := by
  cases h <;> exact List.cons_ne_nil _ _

theorem LeafAt.not_table {entries : List (Text × Value)} {path : List Text} {v : Value}
    (h : LeafAt entries path v) : ∀ inner, v ≠ .table inner := by
  induction h with
  | here _ hv => exact hv
  | under _ _ ih => exact ih

theorem LeafAt.inside {entries : List (Text × Value)} {path : List Text} {v : Value}
    (h : LeafAt entries path v) : Inside v (.table entries) := by
  induction h with
  | here he _ => exact .entry he .self
  | under he _ ih => exact .entry he ih

/-- What is inside a table and no table itself is inside one of its leaves. -/
theorem exists_leafAt_of_inside {entries : List (Text × Value)} {w : Value}
    (h : Inside w (.table entries)) (hw : ∀ inner, w ≠ .table inner) :
    ∃ path v, LeafAt entries path v ∧ Inside w v := by
  -- The induction is on the way to the value; it takes the table as a value.
  generalize htable : Value.table entries = t at h
  induction h generalizing entries with
  | self => exact absurd htable.symm (hw entries)
  | item => cases htable
  | @entry _ e he h ih =>
    cases htable
    obtain ⟨name, v⟩ := e
    by_cases hinner : ∃ inner, v = .table inner
    · obtain ⟨inner, rfl⟩ := hinner
      obtain ⟨path, v', hleaf, hinside⟩ := ih rfl
      exact ⟨name :: path, v', .under he hleaf, hinside⟩
    · exact ⟨[name], v, .here he (not_exists.1 hinner), h⟩

/-! ### The order of leaves -/

theorem pairwise_tableLeaves {entries : List (Text × Value)}
    (hkeys : entries.Pairwise fun a b => a.1 < b.1)
    (hvalues : ∀ e ∈ entries, e.2.leaves.Pairwise fun a b => a.path < b.path) :
    (tableLeaves entries).Pairwise fun a b => a.path < b.path := by
  induction entries with
  | nil => exact List.Pairwise.nil
  | cons e entries ih =>
    obtain ⟨hfirst, hkeys⟩ := List.pairwise_cons.1 hkeys
    obtain ⟨hvalue, hvalues⟩ := List.forall_mem_cons.1 hvalues
    rw [tableLeaves]
    refine List.pairwise_append.2 ⟨List.pairwise_map.2 (hvalue.imp fun h => ?_),
      ih hkeys hvalues, ?_⟩
    · exact List.cons_lt_cons_iff.2 (.inr ⟨rfl, h⟩)
    · intro a ha b hb
      obtain ⟨a', -, rfl⟩ := List.mem_map.1 ha
      obtain ⟨e', he', b', -, rfl⟩ := mem_tableLeaves.1 hb
      exact List.cons_lt_cons_iff.2 (.inl (hfirst e' he'))

theorem pairwise_leaves {v : Value} (h : Throughout Value.Settled v) :
    v.leaves.Pairwise fun a b => a.path < b.path := by
  induction v using Value.inductionOnParts with
  | plain v hplain =>
    rw [Value.leaves_of_not_table hplain.ne_table]
    exact List.pairwise_singleton _ _
  | array items ih =>
    have hnot : ∀ entries, Value.array items ≠ .table entries := nofun
    rw [Value.leaves_of_not_table hnot]
    exact List.pairwise_singleton _ _
  | table entries ih =>
    obtain ⟨hkeys, hvalues⟩ := throughout_table_iff.1 h
    rw [Value.leaves]
    exact pairwise_tableLeaves hkeys fun e he => ih e he (hvalues e he)

/-- The leaves are those of the table, listed depth first, the names of every table in the
order of their bytes. -/
structure Traverses (entries : List (Text × Value)) (leaves : List Leaf) : Prop where
  /-- The leaves are all leaves of the table. -/
  mem_iff : ∀ l, l ∈ leaves ↔ LeafAt entries l.path l.value
  /-- At the first name in which two paths differ, the smaller one decides. -/
  ordered : leaves.Pairwise fun a b => a.path.map Text.toBytes < b.path.map Text.toBytes

/-- Comparing names by bytes is comparing them by characters. -/
theorem map_toBytes_lt {p q : List Text} (h : p < q) : p.map Text.toBytes < q.map Text.toBytes := by
  induction h with
  | nil => exact List.nil_lt_cons _ _
  | rel h => exact List.cons_lt_cons_iff.2 (.inl (Text.toBytes_lt_toBytes h))
  | cons _ ih => exact List.cons_lt_cons_iff.2 (.inr ⟨rfl, ih⟩)

/-- **The listing is the traversal in byte order.** -/
theorem traverses_tableLeaves {entries : List (Text × Value)}
    (h : Throughout Value.Settled (.table entries)) : Traverses entries (tableLeaves entries) where
  mem_iff _ := mem_tableLeaves_iff
  ordered := by
    have hleaves := pairwise_leaves h
    rw [Value.leaves] at hleaves
    exact hleaves.imp map_toBytes_lt

/-- No two leaves have one path. -/
theorem Traverses.nodup_paths {entries : List (Text × Value)} {leaves : List Leaf}
    (h : Traverses entries leaves) : (leaves.map Leaf.path).Nodup := by
  refine List.pairwise_map.2 (h.ordered.imp fun hlt heq => ?_)
  rw [heq] at hlt
  exact List.lt_irrefl _ hlt

end Interpolation.Toml

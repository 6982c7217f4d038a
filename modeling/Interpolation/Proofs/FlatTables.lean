import Interpolation.Configuration.File
import Interpolation.Proofs.ConfigurationMaps
import Interpolation.Proofs.TableLeaves

/-!
# Interpolation.Proofs.FlatTables

**What a configuration file stores**, leaf by leaf of its table of values.

Flattening goes through the leaves in byte order and stops at the first that has no text
(`Flat.tableEntries_eq_mapM`). A leaf has no text just if it is an array with a table in it
(`Flat.text?_eq_none_iff`), so files are refused for nothing else, and the first such array is the
one that is reported (`refused_at_first_array_with_table`).

A leaf is stored under its names with dots between them. The key of the outermost table is the empty
text, and so is that of a table under an empty name in it: leaves of such a table lose the dot in
front (`Flat.storedKey`), and with it they may meet leaves of other tables. `named_by_paths_iff`
says for which files this makes no difference.
-/

namespace Interpolation

open Toml (Leaf LeafAt Inside Throughout Traverses tableLeaves)

/-- There is a table in the value, at any depth, or it is one. -/
def Toml.Value.HasTable (v : Toml.Value) : Prop := ∃ entries, Inside (.table entries) v

namespace Flat

/-! ### Texts -/

theorem texts?_eq_none_iff {items : List Toml.Value} :
    texts? items = none ↔ ∃ v ∈ items, text? v = none := by
  induction items with
  | nil => simp [texts?]
  | cons v items ih =>
    rw [texts?]
    cases hv : text? v with
    | none => simp [hv]
    | some t =>
      cases hitems : texts? items with
      | none => simpa [hv] using ih.1 hitems
      | some ts => simpa [hv, hitems] using ih

theorem isSome_text?_of_hasNoParts {v : Toml.Value} (h : v.HasNoParts) : (text? v).isSome := by
  cases v with
  | array items => exact h.elim
  | table entries => exact h.elim
  | _ => rfl

/-- **Only tables have no text**, and the arrays that they are in. -/
theorem text?_eq_none_iff {v : Toml.Value} : text? v = none ↔ v.HasTable := by
  induction v using Toml.Value.inductionOnParts with
  | plain v hplain =>
    constructor
    · intro h
      have hsome := isSome_text?_of_hasNoParts hplain
      rw [h] at hsome
      cases hsome
    · rintro ⟨entries, hinside⟩
      cases hinside with
      | self => exact hplain.elim
      | item => exact hplain.elim
      | entry => exact hplain.elim
  | array items ih =>
    rw [text?, Option.map_eq_none_iff, texts?_eq_none_iff]
    constructor
    · rintro ⟨v, hv, hnone⟩
      obtain ⟨entries, hinside⟩ := (ih v hv).1 hnone
      exact ⟨entries, .item hv hinside⟩
    · rintro ⟨entries, hinside⟩
      cases hinside with
      | item hv hinside => exact ⟨_, hv, (ih _ hv).2 ⟨entries, hinside⟩⟩
  | table entries ih => exact iff_of_true rfl ⟨entries, .self⟩

/-! ### Keys -/

/-- The names with dots between them. -/
def dottedKey (path : List Text) : Text := Text.join ['.'] path

/-- The key under which the leaf at the path is stored: its names with dots between them, without
the empty ones that it begins with. -/
def storedKey (path : List Text) : Text := Text.join ['.'] (path.dropWhile List.isEmpty)

/-- The path begins with an empty name, and that is the name of a table. -/
def BelowEmptyName (path : List Text) : Prop := ∃ name rest, path = [] :: name :: rest

theorem foldl_joinKey_of_ne_nil {outer : Text} (h : outer ≠ []) (path : List Text) :
    path.foldl joinKey outer = Text.join ['.'] (outer :: path) := by
  induction path generalizing outer with
  | nil => rfl
  | cons name path ih =>
    have hjoin : joinKey outer name = outer ++ '.' :: name := if_neg h
    rw [List.foldl_cons, hjoin, ih (by simp), Text.join_cons (List.cons_ne_nil _ _)]
    cases path with
    | nil => simp
    | cons name' path => simp [Text.join_cons]

/-- Going down the names of a path from the outermost table, one arrives at its key. -/
theorem foldl_joinKey (path : List Text) : path.foldl joinKey [] = storedKey path := by
  induction path with
  | nil => rfl
  | cons name path ih =>
    have hjoin : joinKey [] name = name := if_pos rfl
    rw [List.foldl_cons, hjoin]
    cases name with
    | nil => exact ih
    | cons c name => exact foldl_joinKey_of_ne_nil (List.cons_ne_nil _ _) path

theorem length_storedKey_le (path : List Text) :
    (storedKey path).length ≤ (dottedKey path).length := by
  induction path with
  | nil => exact Nat.le_refl _
  | cons name path ih =>
    cases name with
    | nil =>
      cases path with
      | nil => exact Nat.le_refl _
      | cons name' path =>
        have hdotted : dottedKey ([] :: name' :: path) = '.' :: dottedKey (name' :: path) := rfl
        rw [hdotted, List.length_cons]
        exact Nat.le_succ_of_le ih
    | cons c name => exact Nat.le_refl _

/-- **Keys are paths**, but for leaves in tables under an empty name. -/
theorem storedKey_eq_dottedKey_iff {path : List Text} :
    storedKey path = dottedKey path ↔ ¬ BelowEmptyName path := by
  constructor
  · rintro heq ⟨name, rest, rfl⟩
    have hdotted : dottedKey ([] :: name :: rest) = '.' :: dottedKey (name :: rest) := rfl
    have hstored : storedKey ([] :: name :: rest) = storedKey (name :: rest) := rfl
    have hle := length_storedKey_le (name :: rest)
    rw [← hstored, heq, hdotted, List.length_cons] at hle
    exact Nat.not_succ_le_self _ hle
  · intro h
    match path with
    | [] => rfl
    | [[]] => rfl
    | [] :: name :: rest => exact absurd ⟨name, rest, rfl⟩ h
    | (c :: name) :: rest => rfl

/-! ### Going through the leaves -/

/-- What a leaf of the table with the key `outer` gives. -/
def leafEntry (outer : Text) (l : Leaf) : Except FileError (Text × Text) :=
  match text? l.value with
  | some t => .ok (l.path.foldl joinKey outer, t)
  | none => .error (.tableInArray (l.path.foldl joinKey outer))

theorem leafEntry_comp_under (outer name : Text) :
    leafEntry outer ∘ Leaf.under name = leafEntry (joinKey outer name) :=
  rfl

/-- The entries of a table go through its leaves if its values do. -/
theorem tableEntries_eq_mapM_of_values {entries : List (Text × Toml.Value)}
    (h : ∀ e ∈ entries, ∀ outer, valueEntries outer e.2 = e.2.leaves.mapM (leafEntry outer))
    (outer : Text) : tableEntries outer entries = (tableLeaves entries).mapM (leafEntry outer) := by
  induction entries with
  | nil => rfl
  | cons e entries ih =>
    obtain ⟨hvalue, hvalues⟩ := List.forall_mem_cons.1 h
    rw [tableEntries, hvalue, ih hvalues, tableLeaves, List.mapM_append, List.mapM_map,
      leafEntry_comp_under]

theorem valueEntries_eq_mapM (outer : Text) (v : Toml.Value) :
    valueEntries outer v = v.leaves.mapM (leafEntry outer) := by
  induction v using Toml.Value.inductionOnParts generalizing outer with
  | plain v hplain =>
    obtain ⟨t, ht⟩ := Option.isSome_iff_exists.1 (isSome_text?_of_hasNoParts hplain)
    rw [valueEntries.eq_3 outer v hplain.ne_table hplain.ne_array,
      Toml.Value.leaves_of_not_table hplain.ne_table]
    simp [leafEntry, ht]
  | array items ih =>
    have hnot : ∀ entries, Toml.Value.array items ≠ .table entries := nofun
    rw [valueEntries, Toml.Value.leaves_of_not_table hnot]
    cases ht : text? (.array items) <;> simp [leafEntry, ht]
  | table entries ih =>
    rw [valueEntries, Toml.Value.leaves]
    exact tableEntries_eq_mapM_of_values ih outer

/-- **Flattening goes through the leaves**, one after the other. -/
theorem tableEntries_eq_mapM (entries : List (Text × Toml.Value)) :
    tableEntries [] entries = (tableLeaves entries).mapM (leafEntry []) :=
  tableEntries_eq_mapM_of_values (fun e _ outer => valueEntries_eq_mapM outer e.2) []

theorem mapM_leafEntry_of_texts {leaves : List Leaf} (h : ∀ l ∈ leaves, (text? l.value).isSome) :
    leaves.mapM (leafEntry []) =
      .ok (leaves.map fun l => (storedKey l.path, (text? l.value).getD [])) := by
  induction leaves with
  | nil => rfl
  | cons l leaves ih =>
    obtain ⟨hl, hleaves⟩ := List.forall_mem_cons.1 h
    obtain ⟨t, ht⟩ := Option.isSome_iff_exists.1 hl
    have hentry : leafEntry [] l = .ok (storedKey l.path, (text? l.value).getD []) := by
      rw [leafEntry, ht, foldl_joinKey]
      rfl
    rw [List.mapM_cons, hentry, ih hleaves]
    rfl

/-- The first leaf without a text stops the way through the leaves. -/
theorem mapM_leafEntry_of_first {before after : List Leaf} {l : Leaf}
    (hbefore : ∀ b ∈ before, (text? b.value).isSome) (hl : text? l.value = none) :
    (before ++ l :: after).mapM (leafEntry []) = .error (.tableInArray (storedKey l.path)) := by
  have hentry : leafEntry [] l = .error (.tableInArray (storedKey l.path)) := by
    rw [leafEntry, hl, foldl_joinKey]
  rw [List.mapM_append, mapM_leafEntry_of_texts hbefore, List.mapM_cons, hentry]
  rfl

theorem isSome_text?_iff {v : Toml.Value} : (text? v).isSome ↔ ¬ v.HasTable := by
  rw [← text?_eq_none_iff, Option.isSome_iff_ne_none]

/-- Either every leaf has a text, or there is a first one that has none. -/
theorem texts_or_first (leaves : List Leaf) :
    (∀ l ∈ leaves, (text? l.value).isSome) ∨ ∃ before l after, leaves = before ++ l :: after ∧
      (∀ b ∈ before, (text? b.value).isSome) ∧ text? l.value = none := by
  cases hfind : leaves.find? fun l => (text? l.value).isNone with
  | none =>
    refine .inl fun l hl => ?_
    simpa [Option.isSome_iff_ne_none] using List.find?_eq_none.1 hfind l hl
  | some l =>
    obtain ⟨hl, before, after, heq, hbefore⟩ := List.find?_eq_some_iff_append.1 hfind
    refine .inr ⟨before, l, after, heq, fun b hb => ?_, by simpa using hl⟩
    simpa [Option.isSome_iff_ne_none] using hbefore b hb

end Flat

/-! ### Reading files -/

namespace ConfigurationFile

open Flat

/-- The limit and the values of a text, if it is a document in which both have the right form. -/
def parts? (t : Text) : Option (Option Nat × List (Text × Toml.Value)) :=
  (Toml.document? t).bind fun entries =>
    (field? entries "processor".toList none processorLimit?).bind fun maxDepth =>
      (field? entries "values".toList [] valuesTable?).map fun values => (maxDepth, values)

variable {folder : Option FilePath} {t : Text} {maxDepth : Option Nat}
  {values : List (Text × Toml.Value)}

theorem parts?_eq_some_iff :
    parts? t = some (maxDepth, values) ↔
      ∃ entries, Toml.document? t = some entries ∧
        field? entries "processor".toList none processorLimit? = some maxDepth ∧
        field? entries "values".toList [] valuesTable? = some values := by
  constructor
  · intro h
    obtain ⟨entries, hentries, h⟩ := Option.bind_eq_some_iff.1 h
    obtain ⟨maxDepth', hprocessor, h⟩ := Option.bind_eq_some_iff.1 h
    obtain ⟨values', hvalues, heq⟩ := Option.map_eq_some_iff.1 h
    cases heq
    exact ⟨entries, hentries, hprocessor, hvalues⟩
  · rintro ⟨entries, hentries, hprocessor, hvalues⟩
    rw [parts?, hentries, Option.bind_some, hprocessor, Option.bind_some, hvalues, Option.map_some]

theorem ofText_of_parts (h : parts? t = some (maxDepth, values)) :
    ofText folder t = ((tableLeaves values).mapM (leafEntry [])).map fun flat =>
      ⟨maxDepth, Configuration.ofValues folder (flat.map fun e => (e.1, .text e.2))⟩ := by
  obtain ⟨entries, hentries, hprocessor, hvalues⟩ := parts?_eq_some_iff.1 h
  rw [ofText, hentries, ← tableEntries_eq_mapM]
  simp only [hprocessor, hvalues]
  rfl

theorem ofText_of_no_parts (h : parts? t = none) : ofText folder t = .error .malformed := by
  rw [ofText]
  split
  · rfl
  · rename_i entries hentries
    split
    · rename_i maxDepth values hprocessor hvalues
      have hparts := parts?_eq_some_iff.2 ⟨entries, hentries, hprocessor, hvalues⟩
      rw [h] at hparts
      cases hparts
    · rfl

theorem settled_of_valuesTable {v : Toml.Value} (h : valuesTable? v = some values)
    (hv : Throughout Toml.Value.Regular v) : Throughout Toml.Value.Settled (.table values) := by
  cases v with
  | table entries =>
    obtain ⟨hkeys, hentries⟩ := Toml.throughout_table_iff.1 hv
    obtain ⟨entries', hsettled, rfl⟩ := Option.map_eq_some_iff.1 h
    exact Toml.throughout_settled_of_entries hsettled hkeys fun e he v' hv' =>
      Toml.throughout_settled hv' (hentries e he)
  | moment m =>
    cases h
    refine Toml.throughout_table_iff.2 ⟨List.pairwise_singleton _ _, fun e he => ?_⟩
    cases List.mem_singleton.1 he
    exact Toml.throughout_of_hasNoParts trivial trivial
  | _ => cases h

/-- The table of values is settled. -/
theorem settled_of_parts (h : parts? t = some (maxDepth, values)) :
    Throughout Toml.Value.Settled (.table values) := by
  obtain ⟨entries, hentries, -, hvalues⟩ := parts?_eq_some_iff.1 h
  rw [field?] at hvalues
  split at hvalues
  · cases hvalues
    exact Toml.throughout_table_iff.2 ⟨List.Pairwise.nil, nofun⟩
  · rename_i v hv
    obtain ⟨before, after, hsplit, -⟩ := List.lookup_eq_some_iff.1 hv
    have hmem : ("values".toList, v) ∈ entries := by rw [hsplit]; simp
    exact settled_of_valuesTable hvalues
      ((Toml.throughout_table_iff.1 (Toml.regular_of_document hentries)).2 _ hmem)

/-- The outcome of reading, with the leaves that decide it: all have texts, or there is a
first one that has none. -/
theorem ofText_cases (h : parts? t = some (maxDepth, values)) :
    ((∀ l ∈ tableLeaves values, (text? l.value).isSome) ∧
      ofText folder t = .ok ⟨maxDepth, Configuration.ofValues folder
        ((tableLeaves values).map fun l => (storedKey l.path, .text ((text? l.value).getD [])))⟩) ∨
    ∃ before l after, tableLeaves values = before ++ l :: after ∧
      (∀ b ∈ before, (text? b.value).isSome) ∧
      text? l.value = none ∧ ofText folder t = .error (.tableInArray (storedKey l.path)) := by
  rcases texts_or_first (tableLeaves values) with htexts | ⟨before, l, after, hleaves, hbefore, hl⟩
  · refine .inl ⟨htexts, ?_⟩
    rw [ofText_of_parts h, mapM_leafEntry_of_texts htexts]
    simp only [Except.map, List.map_map]
    rfl
  · refine .inr ⟨before, l, after, hleaves, hbefore, hl, ?_⟩
    rw [ofText_of_parts h, hleaves, mapM_leafEntry_of_first hbefore hl]
    rfl

theorem ofText_eq_tableInArray_iff (h : parts? t = some (maxDepth, values)) {key : Text} :
    ofText folder t = .error (.tableInArray key) ↔
      ∃ before l after, tableLeaves values = before ++ l :: after ∧
        (∀ b ∈ before, (text? b.value).isSome) ∧ text? l.value = none ∧
        key = storedKey l.path := by
  constructor
  · intro herror
    rcases ofText_cases h with ⟨-, hok⟩ | ⟨before, l, after, hleaves, hbefore, hl, herror'⟩
    · rw [hok] at herror
      cases herror
    · rw [herror'] at herror
      cases herror
      exact ⟨before, l, after, hleaves, hbefore, hl, rfl⟩
  · rintro ⟨before, l, after, hleaves, hbefore, hl, rfl⟩
    rw [ofText_of_parts h, hleaves, mapM_leafEntry_of_first hbefore hl]
    rfl

theorem exists_ofText_eq_tableInArray_iff (h : parts? t = some (maxDepth, values)) :
    (∃ key, ofText folder t = .error (.tableInArray key)) ↔
      ∃ l ∈ tableLeaves values, text? l.value = none := by
  constructor
  · rintro ⟨key, herror⟩
    obtain ⟨before, l, after, hleaves, -, hl, -⟩ := (ofText_eq_tableInArray_iff h).1 herror
    exact ⟨l, by simp [hleaves], hl⟩
  · rintro ⟨l, hl, hnone⟩
    rcases ofText_cases h with ⟨htexts, -⟩ | ⟨_, _, _, -, -, -, herror⟩
    · have hsome := htexts l hl
      rw [hnone] at hsome
      cases hsome
    · exact ⟨_, herror⟩

end ConfigurationFile

/-! ### What is refused -/

theorem Toml.LeafAt.exists_array {values : List (Text × Toml.Value)} {path : List Text}
    {v : Toml.Value} (h : LeafAt values path v) (htable : v.HasTable) :
    ∃ items, v = .array items := by
  obtain ⟨entries, hinside⟩ := htable
  cases hinside with
  | self => exact absurd rfl (h.not_table entries)
  | item => exact ⟨_, rfl⟩
  | entry => exact absurd rfl (h.not_table _)

/-- Some leaf has a table in it if some array does, at any depth. -/
theorem Toml.exists_leaf_hasTable_iff {values : List (Text × Toml.Value)} :
    (∃ l ∈ tableLeaves values, l.value.HasTable) ↔
      ∃ items, Inside (.array items) (.table values) ∧ (Toml.Value.array items).HasTable := by
  constructor
  · rintro ⟨⟨path, v⟩, hl, htable⟩
    have hleaf : LeafAt values path v := Toml.mem_tableLeaves_iff.1 hl
    obtain ⟨items, rfl⟩ := hleaf.exists_array htable
    exact ⟨items, hleaf.inside, htable⟩
  · rintro ⟨items, hinside, entries, htable⟩
    obtain ⟨path, v, hleaf, hin⟩ := Toml.exists_leafAt_of_inside hinside nofun
    exact ⟨⟨path, v⟩, Toml.mem_tableLeaves_iff.2 hleaf, entries, htable.trans hin⟩

/-! ### What is stored -/

namespace Flat

/-- The last of the leaves with the name. -/
def lastNamed (name : List Text → Text) (leaves : List Leaf) (key : Text) : Option Leaf :=
  (leaves.filter fun l => name l.path = key).getLast?

/-- The configuration holds the leaves under their names. -/
structure Holds (c : Configuration) (name : List Text → Text) (leaves : List Leaf) : Prop where
  /-- Of the leaves with one name the last one gives its text. Nothing is stored under a
  key that no leaf has. -/
  get? : ∀ key, c.get? key = (lastNamed name leaves key).map fun l => text? l.value
  /-- No key is without a value. -/
  ne_null : ∀ key, c.get? key ≠ some none

theorem mem_of_lastNamed_eq_some {name : List Text → Text} {leaves : List Leaf}
    {key : Text} {l : Leaf} (h : lastNamed name leaves key = some l) :
    l ∈ leaves ∧ name l.path = key := by
  simpa using List.mem_filter.1 (List.mem_of_getLast? h)

theorem lastNamed_congr {name name' : List Text → Text} {leaves : List Leaf} {key : Text}
    (h : ∀ l ∈ leaves, name l.path = key ↔ name' l.path = key) :
    lastNamed name leaves key = lastNamed name' leaves key := by
  rw [lastNamed, lastNamed, List.filter_congr fun l hl => decide_eq_decide.2 (h l hl)]

/-- Storing leaves that have texts, one after the other. -/
theorem holds_ofValues (folder : Option FilePath) (name : List Text → Text) {leaves : List Leaf}
    (h : ∀ l ∈ leaves, (text? l.value).isSome) :
    Holds (.ofValues folder (leaves.map fun l => (name l.path, .text ((text? l.value).getD []))))
      name leaves := by
  have hget (key : Text) :
      Configuration.get? (.ofValues folder
          (leaves.map fun l => (name l.path, .text ((text? l.value).getD [])))) key =
        (lastNamed name leaves key).map fun l => text? l.value := by
    have hfold := Configuration.get?_foldl_insert (fun l : Leaf => name l.path)
      (fun l => some ((text? l.value).getD [])) leaves .empty key
    rw [Configuration.ofValues, List.foldl_map]
    refine hfold.trans ?_
    rw [Configuration.get?_empty, Option.or_none]
    refine Option.map_congr fun l hl => ?_
    obtain ⟨t, ht⟩ := Option.isSome_iff_exists.1 (h l (mem_of_lastNamed_eq_some hl).1)
    rw [ht, Option.getD_some]
  refine ⟨hget, fun key hnull => ?_⟩
  rw [hget] at hnull
  obtain ⟨l, hl, hnone⟩ := Option.map_eq_some_iff.1 hnull
  have hsome := h l (mem_of_lastNamed_eq_some hl).1
  rw [hnone] at hsome
  cases hsome

theorem isSome_lastNamed_iff {name : List Text → Text} {leaves : List Leaf} {key : Text} :
    (lastNamed name leaves key).isSome ↔ ∃ l ∈ leaves, name l.path = key := by
  rw [lastNamed, List.getLast?_isSome, ne_eq, List.filter_eq_nil_iff]
  simp

namespace Holds

variable {c : Configuration} {name name' : List Text → Text} {leaves : List Leaf}

theorem congr (h : Holds c name leaves) (hname : ∀ l ∈ leaves, name l.path = name' l.path) :
    Holds c name' leaves where
  get? key := by rw [h.get? key, lastNamed_congr fun l hl => by rw [hname l hl]]
  ne_null := h.ne_null

/-- The keys are the names of the leaves. -/
theorem mem_keys_iff (h : Holds c name leaves) {key : Text} :
    key ∈ c.keys ↔ ∃ l ∈ leaves, name l.path = key := by
  rw [← Configuration.isSome_get?_iff, h.get? key, Option.isSome_map, isSome_lastNamed_iff]

/-- A leaf that shares its name with no other is there. -/
theorem get?_of_nodup (h : Holds c name leaves)
    (hnodup : (leaves.map fun l => name l.path).Nodup) {l : Leaf} (hl : l ∈ leaves) :
    c.get? (name l.path) = some (text? l.value) := by
  obtain ⟨l', hl'⟩ := Option.isSome_iff_exists.1 (isSome_lastNamed_iff.2 ⟨l, hl, rfl⟩)
  obtain ⟨hmem, hname⟩ := mem_of_lastNamed_eq_some hl'
  rw [h.get?, hl', List.inj_on_of_nodup_map hnodup hmem hl hname, Option.map_some]

end Holds

end Flat

/-! ### Configuration files -/

open Flat ConfigurationFile

section Files

variable {folder : Option FilePath} {t : Text} {maxDepth : Option Nat}
  {values : List (Text × Toml.Value)} {file : ConfigurationFile}

/-- A file that is read holds the leaves of its table of values. -/
theorem ConfigurationFile.holds_of_ok (h : parts? t = some (maxDepth, values))
    (hok : ofText folder t = .ok file) :
    file.maxDepth = maxDepth ∧ Holds file.values storedKey (tableLeaves values) := by
  rcases ofText_cases h with ⟨htexts, hok'⟩ | ⟨_, _, _, -, -, -, herror⟩
  · rw [hok'] at hok
    cases hok
    exact ⟨rfl, holds_ofValues folder storedKey htexts⟩
  · rw [herror] at hok
    cases hok

theorem ConfigurationFile.exists_parts_of_ok (hok : ofText folder t = .ok file) :
    ∃ values, parts? t = some (file.maxDepth, values) := by
  cases hparts : parts? t with
  | none =>
    rw [ofText_of_no_parts hparts] at hok
    cases hok
  | some p => exact ⟨p.2, by rw [(holds_of_ok hparts hok).1]⟩

/-- A file is known from the entries of its values, where these can be computed. -/
theorem ConfigurationFile.exists_of_entries {entries : List (Text × Option Text)}
    (h : (ofText folder t).toOption.map (fun file => file.values.entries) = some entries) :
    ∃ file, ofText folder t = .ok file ∧ file.values.entries = entries := by
  cases hfile : ofText folder t with
  | error e =>
    rw [hfile] at h
    cases h
  | ok file =>
    rw [hfile] at h
    exact ⟨file, rfl, Option.some.inj h⟩

/-- **Files are refused for tables in arrays**, and then for the first array, in byte order of the
names, that has a table in it. Otherwise they are read, and the leaves are stored under keys of the
same form. Tables outside of the table of values do not matter. -/
theorem refused_at_first_array_with_table (h : parts? t = some (maxDepth, values)) :
    Traverses values (tableLeaves values) ∧
    ((∃ key, ofText folder t = .error (.tableInArray key)) ↔
      ∃ items, Inside (.array items) (.table values) ∧ (Toml.Value.array items).HasTable) ∧
    (∀ key, ofText folder t = .error (.tableInArray key) ↔
      ∃ before path items after,
        tableLeaves values = before ++ ⟨path, .array items⟩ :: after ∧
          (∀ b ∈ before, ¬ b.value.HasTable) ∧
          (Toml.Value.array items).HasTable ∧ key = storedKey path) ∧
    ((¬ ∃ key, ofText folder t = .error (.tableInArray key)) ↔
      ∃ file, ofText folder t = .ok file ∧ file.maxDepth = maxDepth ∧
        Holds file.values storedKey (tableLeaves values)) ∧
    ∀ t' maxDepth', parts? t' = some (maxDepth', values) →
      ∀ key, ofText folder t' = .error (.tableInArray key) ↔
        ofText folder t = .error (.tableInArray key) := by
  refine ⟨Toml.traverses_tableLeaves (settled_of_parts h), ?_, fun key => ?_, ?_,
    fun t' maxDepth' h' key => ?_⟩
  · simp only [exists_ofText_eq_tableInArray_iff h, text?_eq_none_iff,
      Toml.exists_leaf_hasTable_iff]
  · simp only [ofText_eq_tableInArray_iff h, isSome_text?_iff, text?_eq_none_iff]
    constructor
    · rintro ⟨before, ⟨path, v⟩, after, hleaves, hbefore, htable, hkey⟩
      have hmem : ⟨path, v⟩ ∈ tableLeaves values := by simp [hleaves]
      obtain ⟨items, rfl⟩ := (Toml.mem_tableLeaves_iff.1 hmem).exists_array htable
      exact ⟨before, path, items, after, hleaves, hbefore, htable, hkey⟩
    · rintro ⟨before, path, items, after, hleaves, hbefore, htable, hkey⟩
      exact ⟨before, ⟨path, .array items⟩, after, hleaves, hbefore, htable, hkey⟩
  · constructor
    · intro hnot
      rcases ofText_cases h with ⟨-, hok⟩ | ⟨_, _, _, -, -, -, herror⟩
      · exact ⟨_, hok, holds_of_ok h hok⟩
      · exact absurd ⟨_, herror⟩ hnot
    · rintro ⟨file, hok, -⟩ ⟨key, herror⟩
      rw [hok] at herror
      cases herror
  · rw [ofText_eq_tableInArray_iff h, ofText_eq_tableInArray_iff h']

/-- A table in an array may be empty, and stand in an inner array. Of two arrays with tables the
first by name is reported, not the first of the document. -/
theorem refused_at_array_with_inner_table :
    let t := "[values]\nc = [\x7b\x7d]\n[values.a]\nb = [1, [\x7b\x7d]]".toList
    ofText none t = .error (.tableInArray ['a', '.', 'b']) ∧
      ∃ values, parts? t = some (none, values) ∧
        (tableLeaves values).map Leaf.path = [[['a'], ['b']], [['c']]] ∧
        (∀ l ∈ tableLeaves values, l.value.HasTable) ∧
        ∃ before path items after, tableLeaves values = before ++ ⟨path, .array items⟩ :: after ∧
          (∀ b ∈ before, ¬ b.value.HasTable) ∧ (Toml.Value.array items).HasTable ∧
          ['a', '.', 'b'] = storedKey path := by
  intro t
  have hleaves :
      (parts? t).map (fun p => (p.1, (tableLeaves p.2).map fun l => (l.path, text? l.value))) =
        some (none, [([['a'], ['b']], none), ([['c']], none)]) := by decide +kernel
  have herror : (match ofText none t with | .error e => some e | .ok _ => none) =
      some (.tableInArray ['a', '.', 'b']) := by decide +kernel
  obtain ⟨⟨maxDepth, values⟩, h, hleaves⟩ := Option.map_eq_some_iff.1 hleaves
  obtain ⟨rfl, hleaves⟩ := Prod.mk.inj hleaves
  have hpaths := congrArg (List.map Prod.fst) hleaves
  have htexts := congrArg (List.map Prod.snd) hleaves
  rw [List.map_map] at hpaths htexts
  have htables : ∀ l ∈ tableLeaves values, l.value.HasTable := by
    intro l hl
    have hmem :
        text? l.value ∈ (tableLeaves values).map (Prod.snd ∘ fun l => (l.path, text? l.value)) :=
      List.mem_map_of_mem hl
    rw [htexts] at hmem
    exact text?_eq_none_iff.1 (by simpa using hmem)
  split at herror
  · rename_i e he
    cases herror
    exact ⟨he, values, h, hpaths, htables, ((refused_at_first_array_with_table h).2.2.1 _).1 he⟩
  · cases herror

/-- **When leaves are named by their paths.** A file that is read holds the leaves of its table of
values, the last of those with one name, each under its names with dots between them, except that
empty names in front of a path leave no dot. So a leaf has another key than its path just if it is
below a table with an empty name. The file as a whole holds what the paths say just if this makes no
difference to the text under either key of such a leaf. -/
theorem named_by_paths_iff (h : ofText folder t = .ok file) :
    ∃ values, parts? t = some (file.maxDepth, values) ∧
    Traverses values (tableLeaves values) ∧ Holds file.values storedKey (tableLeaves values) ∧
    (∀ path, storedKey path = dottedKey path ↔ ¬ BelowEmptyName path) ∧
    (Holds file.values dottedKey (tableLeaves values) ↔
      ∀ l ∈ tableLeaves values, BelowEmptyName l.path →
        ∀ key, key = dottedKey l.path ∨ key = storedKey l.path →
          ((lastNamed storedKey (tableLeaves values) key).map fun l => text? l.value) =
            (lastNamed dottedKey (tableLeaves values) key).map fun l => text? l.value) := by
  obtain ⟨values, hparts⟩ := exists_parts_of_ok h
  have hstored := (holds_of_ok hparts h).2
  refine ⟨values, hparts, Toml.traverses_tableLeaves (settled_of_parts hparts), hstored,
    fun path => storedKey_eq_dottedKey_iff, fun hdotted l _ _ key _ => ?_,
    fun hkeys => ⟨fun key => ?_, hstored.ne_null⟩⟩
  · rw [← hstored.get? key, hdotted.get? key]
  · rw [hstored.get? key]
    by_cases hbelow : ∃ l ∈ tableLeaves values,
        BelowEmptyName l.path ∧ (key = dottedKey l.path ∨ key = storedKey l.path)
    · obtain ⟨l, hl, hempty, hkey⟩ := hbelow
      exact hkeys l hl hempty key hkey
    · -- Elsewhere the two namings agree on which leaves have the key.
      refine congrArg _ (lastNamed_congr fun l hl => ?_)
      by_cases hempty : BelowEmptyName l.path
      · have hstored' : storedKey l.path ≠ key := fun heq => hbelow ⟨l, hl, hempty, .inr heq.symm⟩
        have hdotted' : dottedKey l.path ≠ key := fun heq => hbelow ⟨l, hl, hempty, .inl heq.symm⟩
        exact iff_of_false hstored' hdotted'
      · rw [storedKey_eq_dottedKey_iff.2 hempty]

/-- Names of the document may have dots themselves. Two of the leaves share their key, and the one
whose names come last gives the text. -/
theorem named_by_paths_with_dotted_name :
    let t := "[values]\nz = 0\n[values.\"a.b\"]\nc = 1\n[values.a.b]\nc = 2".toList
    ∃ file, ofText none t = .ok file ∧
      file.values.entries = [(['a', '.', 'b', '.', 'c'], some ['1']), (['z'], some ['0'])] ∧
      ∃ values, parts? t = some (file.maxDepth, values) ∧
        (tableLeaves values).map Leaf.path =
          [[['a'], ['b'], ['c']], [['a', '.', 'b'], ['c']], [['z']]] ∧
        Holds file.values dottedKey (tableLeaves values) := by
  intro t
  have hentries : (ofText none t).toOption.map (fun file => file.values.entries) =
      some [(['a', '.', 'b', '.', 'c'], some ['1']), (['z'], some ['0'])] := by decide +kernel
  have hpaths : (parts? t).map (fun p => (tableLeaves p.2).map Leaf.path) =
      some [[['a'], ['b'], ['c']], [['a', '.', 'b'], ['c']], [['z']]] := by decide +kernel
  obtain ⟨file, h, hentries⟩ := exists_of_entries hentries
  obtain ⟨values, hparts, -, -, -, hholds⟩ := named_by_paths_iff h
  rw [hparts] at hpaths
  have hpaths : (tableLeaves values).map Leaf.path = _ := Option.some.inj hpaths
  refine ⟨file, h, hentries, values, hparts, hpaths, hholds.2 fun l hl hbelow => ?_⟩
  have hmem : l.path ∈ (tableLeaves values).map Leaf.path := List.mem_map_of_mem hl
  obtain ⟨name, rest, hpath⟩ := hbelow
  rw [hpaths, hpath] at hmem
  simp at hmem

/-- The leaf at the path of the empty name and `a` is stored under `a`, and nothing under the
key that the path says. -/
theorem not_named_by_path_below_empty_name :
    let t := "[values.\"\"]\na = 1".toList
    ∃ file values v, ofText none t = .ok file ∧ parts? t = some (file.maxDepth, values) ∧
      tableLeaves values = [⟨[[], ['a']], v⟩] ∧ dottedKey [[], ['a']] = ['.', 'a'] ∧
      file.values.entries = [(['a'], some ['1'])] ∧
        ¬ Holds file.values dottedKey (tableLeaves values) := by
  intro t
  have hentries : (ofText none t).toOption.map (fun file => file.values.entries) =
      some [(['a'], some ['1'])] := by decide +kernel
  have hpaths : (parts? t).map (fun p => (tableLeaves p.2).map Leaf.path) = some [[[], ['a']]] := by
    decide +kernel
  obtain ⟨file, h, hentries⟩ := exists_of_entries hentries
  obtain ⟨values, hparts⟩ := exists_parts_of_ok h
  rw [hparts] at hpaths
  obtain ⟨⟨path, v⟩, hleaves, hpath⟩ := List.map_eq_singleton_iff.1 (Option.some.inj hpaths)
  cases hpath
  refine ⟨file, values, v, h, hparts, hleaves, by decide, hentries, fun hdotted => ?_⟩
  have hget := hdotted.get? ['.', 'a']
  rw [hleaves, Configuration.get?, hentries] at hget
  cases hget

end Files

end Interpolation

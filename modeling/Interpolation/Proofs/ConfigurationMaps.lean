import Interpolation.Proofs.ByteOrder
import Interpolation.Resolver
import Mathlib.Data.Finmap

/-!
# Interpolation.Proofs.ConfigurationMaps

A configuration **is a finite map** from keys to texts, or to no value.

`Configuration.toMap` forgets the order of the entries. What a configuration answers is read off its
map (`Configuration.Reads`), and changing it changes the map (`toMap_insert`, `toMap_erase`,
`toMap_merge`). Since the order of the entries is that of the keys, nothing is forgotten
(`toMap_injective`), and the laws of merging are those of the union of maps.

`stores_follow_maps`: a whole program of operations on several configurations, next to
the same program on maps.
-/

namespace Interpolation

/-- A finite map from keys to texts, or to no value. -/
abbrev KeyMap := Finmap fun _ : Text => Option Text

/-! ### Looking up -/

theorem lookup_cons_ite {β : Type} (key : Text) (entry : Text × β) (l : List (Text × β)) :
    (entry :: l).lookup key = if key = entry.1 then some entry.2 else l.lookup key := by
  obtain ⟨k, value⟩ := entry
  by_cases h : key = k
  · rw [h, List.lookup_cons_self, if_pos rfl]
  · rw [List.lookup_cons, beq_false_of_ne h, if_neg h]

namespace Configuration

theorem lookup_insertEntry (key : Text) (value : Option Text) (l : List (Text × Option Text))
    (key' : Text) :
    (insertEntry key value l).lookup key' = if key' = key then some value else l.lookup key' := by
  induction l with
  | nil => rw [insertEntry, lookup_cons_ite]
  | cons entry rest ih =>
    rw [insertEntry]
    split
    · rw [lookup_cons_ite]
    · split
      · rename_i heq
        rw [lookup_cons_ite, lookup_cons_ite, heq]
        by_cases h : key' = entry.1 <;> simp [h]
      · rename_i hne
        rw [lookup_cons_ite, lookup_cons_ite, ih]
        by_cases h : key' = entry.1
        · have hkey : key' ≠ key := fun hkey => hne (hkey.symm.trans h)
          rw [if_pos h, if_neg hkey, if_pos h]
        · rw [if_neg h, if_neg h]

theorem lookup_filter_ne (key : Text) (l : List (Text × Option Text)) (key' : Text) :
    (l.filter fun e => e.1 ≠ key).lookup key' = if key' = key then none else l.lookup key' := by
  induction l with
  | nil => simp
  | cons entry rest ih =>
    rw [List.filter_cons, lookup_cons_ite]
    by_cases hentry : entry.1 = key
    · simp only [hentry, ne_eq, not_true_eq_false, decide_false, Bool.false_eq_true, if_false]
      rw [ih]
      by_cases h : key' = key <;> simp [h]
    · simp only [hentry, ne_eq, not_false_eq_true, decide_true, if_true]
      rw [lookup_cons_ite, ih]
      by_cases h : key' = entry.1
      · rw [if_pos h, if_neg (h ▸ hentry), if_pos h]
      · rw [if_neg h, if_neg h]

@[simp] theorem get?_empty (key : Text) : empty.get? key = none := rfl

theorem get?_insert (c : Configuration) (key : Text) (value : Option Text) (key' : Text) :
    (c.insert key value).get? key' = if key' = key then some value else c.get? key' :=
  lookup_insertEntry key value c.entries key'

/-- What is stored under a key is the setting under it. -/
theorem setting_setValue (c : Configuration) (folder : Option FilePath) (key : Text) (v : Value) :
    (c.setValue folder key v).setting key = ⟨v.stored folder⟩ := by
  rw [setting, setValue, get?_insert, if_pos rfl, Option.join_some]

theorem get?_erase (c : Configuration) (key key' : Text) :
    (c.erase key).get? key' = if key' = key then none else c.get? key' :=
  lookup_filter_ne key c.entries key'

theorem isSome_get?_iff {c : Configuration} {key : Text} : (c.get? key).isSome ↔ key ∈ c.keys := by
  unfold get? keys
  rw [List.lookup_isSome_iff]
  simp

/-- A key before all others is not among them. -/
theorem lookup_eq_none_of_lt {key : Text} {l : List (Text × Option Text)} (h : ∀ e ∈ l, key < e.1) :
    l.lookup key = none := by
  rw [List.lookup_eq_none_iff]
  intro e he
  have hlt := h e he
  simpa using fun heq : key = e.1 => List.lt_irrefl _ (heq ▸ hlt)

/-- **Merging prefers the other configuration**, also where it sets a key to no value. -/
theorem get?_merge (c d : Configuration) (key : Text) :
    (c.merge d).get? key = (d.get? key).or (c.get? key) := by
  obtain ⟨l, hl⟩ := d
  unfold merge
  show _ = (l.lookup key).or (c.get? key)
  simp only
  induction l generalizing c with
  | nil => rfl
  | cons entry rest ih =>
    obtain ⟨hentry, hrest⟩ := List.pairwise_cons.1 hl
    rw [List.foldl_cons, ih (c.insert entry.1 entry.2) hrest, get?_insert, lookup_cons_ite]
    by_cases hkey : key = entry.1
    · rw [if_pos hkey, if_pos hkey, hkey, lookup_eq_none_of_lt hentry, Option.none_or,
        Option.some_or]
    · rw [if_neg hkey, if_neg hkey]

/-- **Of several insertions under one key the last one counts.** -/
theorem get?_foldl_insert {α : Type} (key : α → Text) (value : α → Option Text) (l : List α)
    (c : Configuration) (k : Text) :
    (l.foldl (fun c a => c.insert (key a) (value a)) c).get? k =
      ((l.filter fun a => key a = k).getLast?.map value).or (c.get? k) := by
  induction l generalizing c with
  | nil => rfl
  | cons a l ih =>
    rw [List.foldl_cons, ih, get?_insert, List.filter_cons]
    by_cases hkey : key a = k
    · rw [if_pos hkey.symm, if_pos (by simpa using hkey), List.getLast?_cons]
      cases (l.filter fun a => key a = k).getLast? <;> rfl
    · rw [if_neg (Ne.symm hkey), if_neg (by simpa using hkey)]

/-- No value overrides a text. -/
example :
    ((empty.insert ['k'] (some ['v'])).merge (empty.insert ['k'] none)).get? ['k'] =
      some none := by
  decide

/-! ### The map of a configuration -/

/-- The map that a configuration holds. -/
def toMap (c : Configuration) : KeyMap :=
  (c.entries.map fun e => ⟨e.1, e.2⟩ : List (Σ _ : Text, Option Text)).toFinmap

theorem lookup_toMap (c : Configuration) (key : Text) : c.toMap.lookup key = c.get? key := by
  unfold toMap get?
  rw [Finmap.dlookup_list_toFinmap]
  induction c.entries with
  | nil => rfl
  | cons entry rest ih =>
    rw [List.map_cons, lookup_cons_ite]
    by_cases h : key = entry.1
    · rw [if_pos h, h, List.dlookup_cons_eq]
    · rw [if_neg h, List.dlookup_cons_ne _ _ h, ih]

theorem mem_toMap {c : Configuration} {key : Text} : key ∈ c.toMap ↔ (c.get? key).isSome := by
  rw [← Finmap.lookup_isSome, lookup_toMap]

@[simp] theorem toMap_empty : empty.toMap = ∅ := rfl

theorem toMap_insert (c : Configuration) (key : Text) (value : Option Text) :
    (c.insert key value).toMap = c.toMap.insert key value := by
  refine Finmap.ext_lookup fun key' => ?_
  rw [lookup_toMap, get?_insert]
  by_cases h : key' = key
  · rw [if_pos h, h, Finmap.lookup_insert]
  · rw [if_neg h, Finmap.lookup_insert_of_ne _ h, lookup_toMap]

theorem toMap_erase (c : Configuration) (key : Text) : (c.erase key).toMap = c.toMap.erase key := by
  refine Finmap.ext_lookup fun key' => ?_
  rw [lookup_toMap, get?_erase]
  by_cases h : key' = key
  · rw [if_pos h, h, Finmap.lookup_erase]
  · rw [if_neg h, Finmap.lookup_erase_ne h, lookup_toMap]

theorem toMap_merge (c d : Configuration) : (c.merge d).toMap = d.toMap ∪ c.toMap := by
  refine Finmap.ext_lookup fun key => ?_
  rw [lookup_toMap, get?_merge]
  cases h : d.get? key with
  | none =>
    have hmem : key ∉ d.toMap := by simp [mem_toMap, h]
    rw [Finmap.lookup_union_right hmem, lookup_toMap, Option.none_or]
  | some value =>
    have hmem : key ∈ d.toMap := by simp [mem_toMap, h]
    rw [Finmap.lookup_union_left hmem, lookup_toMap, h, Option.some_or]

/-- A key in front of all keys of another list would be missing there. -/
theorem not_lt_of_lookup_eq {a b : Text × Option Text} {l l' : List (Text × Option Text)}
    (hb : ∀ e ∈ l', keyBefore b e) (h : (a :: l).lookup a.1 = (b :: l').lookup a.1) :
    ¬ a.1 < b.1 := by
  intro hlt
  have hafter : ∀ e ∈ b :: l', a.1 < e.1 :=
    List.forall_mem_cons.2 ⟨hlt, fun e he => List.lt_trans hlt (hb e he)⟩
  rw [lookup_cons_ite, if_pos rfl, lookup_eq_none_of_lt hafter] at h
  cases h

/-- Entries in the order of their keys are known from what is looked up among them. -/
theorem eq_of_lookup_eq {l l' : List (Text × Option Text)} (h : l.Pairwise keyBefore)
    (h' : l'.Pairwise keyBefore) (heq : ∀ key, l.lookup key = l'.lookup key) : l = l' := by
  induction l generalizing l' with
  | nil =>
    cases l' with
    | nil => rfl
    | cons entry' rest' => simpa [lookup_cons_ite] using heq entry'.1
  | cons entry rest ih =>
    cases l' with
    | nil => simpa [lookup_cons_ite] using heq entry.1
    | cons entry' rest' =>
      obtain ⟨hentry, hrest⟩ := List.pairwise_cons.1 h
      obtain ⟨hentry', hrest'⟩ := List.pairwise_cons.1 h'
      have hkey : entry.1 = entry'.1 :=
        List.le_antisymm (List.not_lt.1 (not_lt_of_lookup_eq hentry (heq entry'.1).symm))
          (List.not_lt.1 (not_lt_of_lookup_eq hentry' (heq entry.1)))
      have hvalue : entry.2 = entry'.2 := by
        have := heq entry.1
        rw [lookup_cons_ite, lookup_cons_ite, if_pos rfl, if_pos hkey] at this
        exact Option.some.inj this
      rw [Prod.ext hkey hvalue, ih hrest hrest' fun key => ?_]
      by_cases hne : key = entry.1
      · rw [hne, lookup_eq_none_of_lt hentry, hkey, lookup_eq_none_of_lt hentry']
      · have := heq key
        rwa [lookup_cons_ite, lookup_cons_ite, if_neg hne, if_neg (hkey ▸ hne)] at this

/-- **The map forgets nothing.** -/
theorem toMap_injective : Function.Injective toMap := by
  intro c d h
  refine Configuration.ext (eq_of_lookup_eq c.sorted d.sorted fun key => ?_)
  have := congrArg (Finmap.lookup key) h
  rwa [lookup_toMap, lookup_toMap] at this

/-! ### Merging -/

theorem merge_assoc (c d e : Configuration) : (c.merge d).merge e = c.merge (d.merge e) := by
  refine toMap_injective ?_
  simp only [toMap_merge]
  rw [Finmap.union_assoc]

theorem merge_self (c : Configuration) : c.merge c = c := by
  refine toMap_injective (Finmap.ext_lookup fun key => ?_)
  rw [lookup_toMap, lookup_toMap, get?_merge, Option.or_self]

theorem empty_merge (c : Configuration) : empty.merge c = c := by
  refine toMap_injective ?_
  rw [toMap_merge, toMap_empty, Finmap.union_empty]

theorem merge_empty (c : Configuration) : c.merge empty = c := rfl

/-! ### Reading the map -/

/-- What a configuration answers, when it holds a map. -/
structure Reads (c : Configuration) (m : KeyMap) : Prop where
  /-- The keys of the map have been set. -/
  contains : ∀ key, c.contains key = decide (key ∈ m)
  /-- A setting is the text under its key; there is none for a key without a value, or
  outside of the map. -/
  setting : ∀ key, (c.setting key).text? = (m.lookup key).join
  /-- The size is the number of keys. -/
  size : c.size = m.keys.card
  /-- Only the empty map makes a configuration empty. -/
  isEmpty : c.isEmpty = decide (m = ∅)
  /-- The keys are those of the map, -/
  keys : c.keys.toFinset = m.keys
  /-- in the order of their bytes, so that none stands twice. -/
  keys_ordered : c.keys.Pairwise fun a b => a.toBytes < b.toBytes
  /-- As a resolver, a configuration knows the keys of the map that are no integers. -/
  resolver : ∀ name, Resolver.configuration (some c) name =
    if (index? name).isSome then none else (m.lookup name).map (·.getD [])

theorem keys_pairwise (c : Configuration) : c.keys.Pairwise (· < ·) := List.pairwise_map.2 c.sorted

/-- No key stands twice. -/
theorem nodup_keys (c : Configuration) : c.keys.Nodup := by
  refine c.keys_pairwise.imp fun hlt heq => ?_
  exact List.lt_irrefl _ (heq ▸ hlt)

theorem toFinset_keys (c : Configuration) : c.keys.toFinset = c.toMap.keys := by
  ext key
  rw [List.mem_toFinset, Finmap.mem_keys, mem_toMap, isSome_get?_iff]

theorem size_eq_card (c : Configuration) : c.size = c.toMap.keys.card := by
  rw [← toFinset_keys, List.toFinset_card_of_nodup c.nodup_keys, keys, List.length_map, size]

theorem isEmpty_iff {c : Configuration} : c.isEmpty ↔ c.toMap = ∅ := by
  unfold isEmpty
  rw [List.isEmpty_iff, ← toMap_empty, toMap_injective.eq_iff]
  exact ⟨fun h => Configuration.ext h, fun h => congrArg entries h⟩

theorem resolver_eq (c : Configuration) (name : Text) :
    Resolver.configuration (some c) name =
      if (index? name).isSome then none else (c.get? name).map (·.getD []) := by
  unfold Resolver.configuration contains setting Setting.display
  rw [Option.bind_some]
  by_cases hindex : (index? name).isSome
  · rw [if_pos (by simp [hindex]), if_pos hindex]
  · rw [if_neg hindex]
    cases hname : c.get? name with
    | none => simp
    | some value => cases value <;> simp [hindex]

/-- **A configuration answers what its map says.** -/
theorem reads_toMap (c : Configuration) : c.Reads c.toMap where
  contains key := by
    rw [Bool.eq_iff_iff, decide_eq_true_iff, mem_toMap]
    rfl
  setting key := by rw [lookup_toMap]; rfl
  size := c.size_eq_card
  isEmpty := by rw [Bool.eq_iff_iff, decide_eq_true_iff, isEmpty_iff]
  keys := c.toFinset_keys
  keys_ordered := c.keys_pairwise.imp Text.toBytes_lt_toBytes
  resolver name := by rw [resolver_eq, lookup_toMap]

end Configuration

/-- Only no value is stored as none. -/
theorem Value.stored_eq_none_iff {folder : Option FilePath} {v : Value} :
    v.stored folder = none ↔ v.isNull := by
  cases v <;> simp [Value.stored, Value.isNull]

/-! ### Programs -/

/-- A change to one of several stores. -/
inductive Operation (σ : Type)
  /-- Set a key of a store, while the program works in `folder`. -/
  | set (folder : Option FilePath) (store : σ) (key : Text) (value : Value)
  /-- Take a key out of a store. -/
  | remove (store : σ) (key : Text)
  /-- Copy the entries of another store over a store. -/
  | merge (store other : σ)

namespace Operation

variable {σ : Type} [DecidableEq σ]

/-- Change configurations; what a removal answers is the only answer. -/
def onStores (stores : σ → Configuration) : Operation σ → (σ → Configuration) × List Bool
  | .set folder store key value =>
    (Function.update stores store ((stores store).setValue folder key value), [])
  | .remove store key =>
    (Function.update stores store ((stores store).remove key).1, [((stores store).remove key).2])
  | .merge store other => (Function.update stores store ((stores store).merge (stores other)), [])

/-- Change maps in the same way. -/
def onMaps (maps : σ → KeyMap) : Operation σ → (σ → KeyMap) × List Bool
  | .set folder store key value =>
    (Function.update maps store ((maps store).insert key (value.stored folder)), [])
  | .remove store key =>
    (Function.update maps store ((maps store).erase key), [decide (key ∈ maps store)])
  | .merge store other => (Function.update maps store (maps other ∪ maps store), [])

/-- Do one operation after the other, and collect the answers. -/
def run {τ : Type} (step : τ → Operation σ → τ × List Bool) : τ → List (Operation σ) → τ × List Bool
  | stores, [] => (stores, [])
  | stores, op :: ops =>
    let first := step stores op
    let others := run step first.1 ops
    (others.1, first.2 ++ others.2)

/-- An operation does to the maps of configurations what it does to the configurations. -/
theorem onMaps_toMap (stores : σ → Configuration) (op : Operation σ) :
    onMaps (Configuration.toMap ∘ stores) op =
      (Configuration.toMap ∘ (onStores stores op).1, (onStores stores op).2) := by
  cases op with
  | set folder store key value =>
    rw [onStores, onMaps, Function.comp_update, Configuration.setValue, Configuration.toMap_insert]
    rfl
  | remove store key =>
    rw [onStores, onMaps, Function.comp_update, Configuration.remove, Configuration.toMap_erase]
    refine congrArg _ (congrArg (· :: []) ?_)
    exact ((stores store).reads_toMap.contains key).symm
  | merge store other =>
    rw [onStores, onMaps, Function.comp_update, Configuration.toMap_merge]
    rfl

theorem run_onMaps_toMap (stores : σ → Configuration) (ops : List (Operation σ)) :
    run onMaps (Configuration.toMap ∘ stores) ops =
      (Configuration.toMap ∘ (run onStores stores ops).1, (run onStores stores ops).2) := by
  induction ops generalizing stores with
  | nil => rfl
  | cons op ops ih => simp only [run, onMaps_toMap, ih]

end Operation

/-- **Stores follow maps.** After every program on empty stores, each store answers what its map
says after the same program on empty maps, and the removals answered the same on the way. No value
is kept apart from every text. Merging prefers the other configuration key by key; it is associative
and idempotent, and the empty configuration is neutral on either side. -/
theorem stores_follow_maps {σ : Type} [DecidableEq σ] (ops : List (Operation σ))
    (folder : Option FilePath) (value : Value) (c d e : Configuration) :
    ((Operation.run Operation.onStores (fun _ => .empty) ops).2 =
        (Operation.run Operation.onMaps (fun _ => ∅) ops).2 ∧
      ∀ store, ((Operation.run Operation.onStores (fun _ => .empty) ops).1 store).Reads
        ((Operation.run Operation.onMaps (fun _ => ∅) ops).1 store)) ∧
    (value.stored folder = none ↔ value.isNull) ∧
    (∀ key, (c.merge d).get? key = (d.get? key).or (c.get? key)) ∧
    (c.merge d).merge e = c.merge (d.merge e) ∧
    c.merge c = c ∧ Configuration.empty.merge c = c ∧ c.merge .empty = c := by
  have hrun := Operation.run_onMaps_toMap (fun _ : σ => Configuration.empty) ops
  have hstart : Configuration.toMap ∘ (fun _ : σ => Configuration.empty) =
      fun _ => (∅ : KeyMap) := rfl
  rw [hstart] at hrun
  rw [hrun]
  exact ⟨⟨rfl, fun store => Configuration.reads_toMap _⟩, Value.stored_eq_none_iff,
    Configuration.get?_merge c d, Configuration.merge_assoc c d e, c.merge_self, c.empty_merge,
    c.merge_empty⟩

end Interpolation

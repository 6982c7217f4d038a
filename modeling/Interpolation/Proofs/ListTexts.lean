import Interpolation.Proofs.ConfigurationMaps
import Interpolation.Proofs.Trimming

/-!
# Interpolation.Proofs.ListTexts

**Lists are stored as one text and read back from it.**

Whatever the nesting of a list, its text is that of its leaves with the separator between any two of
them (`Value.toText_eq_join`); an empty list in it is a leaf with an empty text. Reading cuts at the
commas and trims, so a list comes back as the texts of its leaves, each trimmed, if none of them has
a comma. One case is lost: a single blank text is stored like a list without items, and read as one
(`Setting.items_of_blank`).

What reading gives are items (`Setting.IsItem`): they are trimmed and have no commas. Items joined
with commas are read back unchanged (`Setting.items_join_eq_self`).
-/

namespace Interpolation

/-! ### Splitting what was joined -/

namespace Text

theorem join_append {separator : Text} {ts us : List Text} (hts : ts ≠ []) (hus : us ≠ []) :
    join separator (ts ++ us) = join separator ts ++ separator ++ join separator us := by
  induction ts with
  | nil => exact absurd rfl hts
  | cons t ts ih =>
    cases ts with
    | nil => exact join_cons hus
    | cons t' ts =>
      have hrest : t' :: ts ≠ [] := List.cons_ne_nil _ _
      rw [List.cons_append, join_cons (List.append_ne_nil_of_left_ne_nil hrest us), ih hrest,
        join_cons hrest]
      simp only [List.append_assoc]

/-- Lists that are joined one by one, and then joined, are joined as one list. -/
theorem join_flatten {separator : Text} {lists : List (List Text)} (h : ∀ ts ∈ lists, ts ≠ []) :
    join separator lists.flatten = join separator (lists.map (join separator)) := by
  induction lists with
  | nil => rfl
  | cons ts lists ih =>
    obtain ⟨hts, hlists⟩ := List.forall_mem_cons.1 h
    cases lists with
    | nil => rw [List.flatten_singleton, List.map_singleton, join_singleton]
    | cons us lists =>
      have hflatten : (us :: lists).flatten ≠ [] := by
        rw [List.flatten_cons]
        exact List.append_ne_nil_of_left_ne_nil (hlists us List.mem_cons_self) _
      have hmap : (us :: lists).map (join separator) ≠ [] :=
        mt List.map_eq_nil_iff.1 (List.cons_ne_nil us lists)
      rw [List.flatten_cons, join_append hts hflatten, ih hlists]
      exact (join_cons hmap).symm

theorem join_eq_intercalate (separator : Text) (ts : List Text) :
    join separator ts = separator.intercalate ts := by
  induction ts with
  | nil => rfl
  | cons t ts ih =>
    cases ts with
    | nil => simp
    | cons t' ts => rw [join_cons (List.cons_ne_nil _ _), ih, List.intercalate_cons_cons]

theorem splitOn_eq (mark : Char) (t : Text) : splitOn mark t = List.splitOn mark t := by
  rw [List.splitOn_eq_splitOnP]
  induction t with
  | nil => rfl
  | cons c t ih =>
    rw [List.splitOnP_cons_eq_if_modifyHead, ← ih, splitOn]
    by_cases hc : c = mark
    · simp [hc]
    · cases hparts : splitOn mark t with
      | nil => exact absurd hparts (splitOn_ne_nil mark t)
      | cons part parts => simp [hc]

theorem splitOn_join {mark : Char} {ts : List Text} (hne : ts ≠ []) (h : ∀ t ∈ ts, mark ∉ t) :
    splitOn mark (join [mark] ts) = ts := by
  rw [splitOn_eq, join_eq_intercalate, List.splitOn_intercalate mark h hne]

theorem splitOn_of_not_mem {mark : Char} {t : Text} (h : mark ∉ t) : splitOn mark t = [t] :=
  splitOn_join (List.cons_ne_nil t []) (List.forall_mem_singleton.2 h)

theorem not_mem_of_mem_splitOn {mark : Char} {part t : Text} (h : part ∈ splitOn mark t) :
    mark ∉ part := by
  induction t generalizing part with
  | nil =>
    rw [splitOn_nil, List.mem_singleton] at h
    simp [h]
  | cons c t ih =>
    rw [splitOn] at h
    split at h
    · rcases List.mem_cons.1 h with rfl | h
      · exact List.not_mem_nil
      · exact ih h
    · rename_i hc
      split at h
      · rw [List.mem_singleton] at h
        simpa [h] using Ne.symm hc
      · rename_i first parts hparts
        rcases List.mem_cons.1 h with rfl | h
        · have hfirst : mark ∉ first := ih (hparts ▸ List.mem_cons_self)
          exact List.not_mem_cons_of_ne_of_not_mem (Ne.symm hc) hfirst
        · exact ih (hparts ▸ List.mem_cons_of_mem _ h)

end Text

/-! ### The leaves of nested lists -/

mutual

/-- The leaves of a value in order: a value that is no list is its own leaf, and so is
a list without items. -/
def Value.leaves : Value → List Value
  | .list [] => [.list []]
  | .list (item :: items) => item.leaves ++ Value.leavesOf items
  | v => [v]

/-- The leaves of the items of a list. -/
def Value.leavesOf : List Value → List Value
  | [] => []
  | item :: items => item.leaves ++ Value.leavesOf items

end

namespace Value

/-- What holds of a value if it holds of the leaves, and of a list whenever it holds of
its items. -/
@[elab_as_elim]
theorem inductionOnItems {motive : Value → Prop} (v : Value)
    (leaf : ∀ v : Value, v.leaves = [v] → motive v)
    (list : ∀ items : List Value, items ≠ [] → (∀ v ∈ items, motive v) → motive (.list items)) :
    motive v :=
  Value.rec (motive_1 := motive) (motive_2 := fun _ => True)
    (motive_3 := fun items => ∀ v ∈ items, motive v)
    (motive_4 := fun _ => True) (motive_5 := fun _ => True) (motive_6 := fun _ => True)
    (leaf _ rfl) (fun _ => leaf _ rfl) (fun _ => leaf _ rfl) (fun _ => leaf _ rfl)
    (fun _ => leaf _ rfl) (fun _ => leaf _ rfl) (fun _ => leaf _ rfl)
    (fun items ih => match items with
      | [] => leaf _ rfl
      | _ :: _ => list _ (List.cons_ne_nil _ _) ih)
    (fun _ _ => leaf _ rfl) (fun _ _ _ _ _ _ _ => trivial)
    nofun (fun _ _ hv hitems => List.forall_mem_cons.2 ⟨hv, hitems⟩)
    trivial (fun _ _ _ _ => trivial) trivial (fun _ _ => trivial) (fun _ _ _ => trivial) v

theorem leavesOf_eq_flatMap (items : List Value) : leavesOf items = items.flatMap leaves := by
  induction items with
  | nil => rw [leavesOf, List.flatMap_nil]
  | cons item items ih => rw [leavesOf, ih, List.flatMap_cons]

theorem leaves_list {items : List Value} (h : items ≠ []) :
    (Value.list items).leaves = items.flatMap leaves := by
  cases items with
  | nil => exact absurd rfl h
  | cons item items => rw [leaves, leavesOf_eq_flatMap, List.flatMap_cons]

theorem leaves_ne_nil (v : Value) : v.leaves ≠ [] := by
  induction v using Value.inductionOnItems with
  | leaf v h => simp [h]
  | list items hne ih =>
    obtain ⟨item, hitem⟩ := List.exists_mem_of_ne_nil items hne
    rw [leaves_list hne]
    exact fun hnil => ih item hitem (List.flatMap_eq_nil_iff.1 hnil item hitem)

variable {separator : Separator}

/-- **The text of a list is that of its leaves**, joined by the separator, however deep they are. -/
theorem toText_eq_join (v : Value) :
    v.toText separator = Text.join separator.toText (v.leaves.map (toText separator)) := by
  induction v using Value.inductionOnItems with
  | leaf v h => rw [h, List.map_singleton, Text.join_singleton]
  | list items hne ih =>
    have hleaves : ∀ ts ∈ items.map fun v => v.leaves.map (toText separator), ts ≠ [] := by
      intro ts hts
      obtain ⟨v, -, rfl⟩ := List.mem_map.1 hts
      exact mt List.map_eq_nil_iff.1 v.leaves_ne_nil
    calc (Value.list items).toText separator
        = Text.join separator.toText (items.map (toText separator)) := by
          rw [toText, toTexts_eq_map]
      _ = Text.join separator.toText
            ((items.map fun v => v.leaves.map (toText separator)).map
              (Text.join separator.toText)) := by
          rw [List.map_map, List.map_congr_left ih]
          rfl
      _ = Text.join separator.toText (items.map fun v => v.leaves.map (toText separator)).flatten :=
          (Text.join_flatten hleaves).symm
      _ = Text.join separator.toText ((Value.list items).leaves.map (toText separator)) := by
          rw [leaves_list hne, List.map_flatMap]
          rfl

theorem toText_list_text (ts : List Text) :
    (Value.list (ts.map .text)).toText separator = Text.join separator.toText ts := by
  have htext : toText separator ∘ Value.text = id := funext fun t => by
    rw [Function.comp_apply, toText, id]
  rw [toText, toTexts_eq_map, List.map_map, htext, List.map_id]

theorem stored_list (folder : Option FilePath) (items : List Value) :
    (Value.list items).stored folder = some ((Value.list items).toText .comma) := rfl

end Value

/-! ### Items -/

namespace Setting

/-- The text can be an item: it has no blank at either end, and no comma. -/
structure IsItem (t : Text) : Prop where
  trimmed : Text.Trimmed isBlank t
  no_comma : ',' ∉ t

theorem isItem_of_mem_items {item t : Text} (h : item ∈ items t) : IsItem item := by
  rw [items] at h
  split at h
  · cases h
  · obtain ⟨part, hpart, rfl⟩ := List.mem_map.1 h
    exact ⟨Text.trimmed_trimBy _ _,
      fun hmem => Text.not_mem_of_mem_splitOn hpart (Text.mem_of_mem_trimBy hmem)⟩

theorem items_of_blank {t : Text} (h : ∀ c ∈ t, isBlank c) : items t = [] :=
  if_pos (Text.trim_eq_nil_iff.2 h)

/-- Without a comma the text is one item, or none if it is blank. -/
theorem items_of_not_mem {t : Text} (h : ',' ∉ t) :
    items t = if t.trim = [] then [] else [t.trim] := by
  rw [items, Text.splitOn_of_not_mem h, List.map_singleton]

theorem items_join {ts : List Text} (hcomma : ∀ t ∈ ts, ',' ∉ t) (hne : ts ≠ [])
    (hblank : ∀ t, ts = [t] → ¬ ∀ c ∈ t, isBlank c) :
    items (Text.join [','] ts) = ts.map Text.trim := by
  have hjoin : ¬ (Text.join [','] ts).trim = [] := by
    rw [Text.trim_eq_nil_iff]
    intro hall
    cases ts with
    | nil => exact hne rfl
    | cons t ts =>
      cases ts with
      | nil => exact hblank t rfl hall
      | cons t' ts =>
        -- A comma stands behind the first text, and commas are not blank.
        have hmem : ',' ∈ Text.join [','] (t :: t' :: ts) := by simp [Text.join_cons]
        exact absurd (hall ',' hmem) (by decide)
  rw [items, if_neg hjoin, Text.splitOn_join hne hcomma]

/-- **Items are read back unchanged**; only a single empty one would not be. -/
theorem items_join_eq_self {ts : List Text} (h : ∀ t ∈ ts, IsItem t) (hne : ts ≠ [[]]) :
    items (Text.join [','] ts) = ts := by
  by_cases hnil : ts = []
  · rw [hnil]
    rfl
  · rw [items_join (fun t ht => (h t ht).no_comma) hnil]
    · rw [List.map_congr_left fun t ht => (h t ht).trimmed.trim_eq, List.map_id']
    · intro t hts hall
      refine hne ?_
      have ht : IsItem t := h t (hts ▸ List.mem_singleton_self t)
      rw [hts, ← ht.trimmed.trim_eq, Text.trim_eq_nil_iff.2 hall]

/-- Only a blank text would give a single empty item, and it gives none. -/
theorem items_ne_singleton_nil (t : Text) : items t ≠ [[]] := by
  intro h
  rw [items] at h
  split at h
  · cases h
  · rename_i hblank
    obtain ⟨part, hsplit, htrim⟩ := List.map_eq_singleton_iff.1 h
    have ht : t = part := by
      rw [← Text.join_splitOn ',' t, hsplit, Text.join_singleton]
    exact hblank (ht ▸ htrim)

theorem items_join_items (t : Text) : items (Text.join [','] (items t)) = items t :=
  items_join_eq_self (fun _ => isItem_of_mem_items) (items_ne_singleton_nil t)

end Setting

/-- **Lists are read back.** If the texts of the leaves of a list have no commas, what is read from
the stored list is these texts, each one trimmed, as many and in the same order; only if there is a
single text, and that is blank, nothing is. And whatever text is stored, the items that are read
from it can be stored as a list and are read again. -/
theorem lists_are_read_back (c d : Configuration) (folder : Option FilePath) (key key' : Text) :
    (∀ items : List Value,
      let texts := (Value.list items).leaves.map (Value.toText .comma)
      let stored := (c.setValue folder key (.list items)).setting key
      (∀ t ∈ texts, ',' ∉ t) →
        ((∃ t, texts = [t] ∧ ∀ ch ∈ t, isBlank ch) → stored.toList? = some []) ∧
        ((¬ ∃ t, texts = [t] ∧ ∀ ch ∈ t, isBlank ch) →
          stored.toList? = some (texts.map Text.trim))) ∧
    ∀ t, (c.setting key).text? = some t →
      ∃ items, (c.setting key).toList? = some items ∧
        ((d.setValue folder key' (.list (items.map .text))).setting key').toList? = some items := by
  constructor
  · intro items texts stored hcomma
    have hstored : stored.toList? = some (Setting.items (Text.join [','] texts)) := by
      have htext : (Value.list items).toText .comma = Text.join [','] texts :=
        Value.toText_eq_join _
      have hsetting : stored = ⟨(Value.list items).stored folder⟩ := c.setting_setValue folder key _
      rw [hsetting, Setting.toList?, Value.stored_list, Option.map_some, htext]
    constructor
    · intro hone
      obtain ⟨t, htexts, hblank⟩ := hone
      rw [hstored, htexts, Text.join_singleton, Setting.items_of_blank hblank]
    · intro hmany
      have hne : texts ≠ [] := mt List.map_eq_nil_iff.1 (Value.leaves_ne_nil _)
      rw [hstored, Setting.items_join hcomma hne fun t htexts hblank => hmany ⟨t, htexts, hblank⟩]
  · intro t ht
    refine ⟨Setting.items t, by rw [Setting.toList?, ht, Option.map_some], ?_⟩
    rw [Configuration.setting_setValue, Setting.toList?, Value.stored_list, Value.toText_list_text,
      Option.map_some]
    exact congrArg some (Setting.items_join_items t)

/-- A list in a list, one of them empty, and a stored text with blank items. -/
theorem lists_are_read_back_with_inner_lists :
    let items : List Value := [.text [' ', 'a', ' '], .list [.list [], .null], .bool true]
    let texts : List Text := [[' ', 'a', ' '], [], [], ['t', 'r', 'u', 'e']]
    let stored := Configuration.empty.insert ['k'] (some [' ', 'x', ',', ' ', ',', 'y'])
    (Value.list items).leaves.map (Value.toText .comma) = texts ∧ (∀ t ∈ texts, ',' ∉ t) ∧
      ((stored.setValue none ['k'] (.list items)).setting ['k']).toList? =
        some [['a'], [], [], ['t', 'r', 'u', 'e']] ∧
      (stored.setting ['k']).text? = some [' ', 'x', ',', ' ', ',', 'y'] ∧
      ((stored.setValue none ['k'] (.list [.text ['x'], .text [], .text ['y']])).setting
          ['k']).toList? =
        some [['x'], [], ['y']] := by
  intro items texts stored
  have htexts : (Value.list items).leaves.map (Value.toText .comma) = texts := by rfl
  have hcomma : ∀ t ∈ texts, ',' ∉ t := by decide
  have htext : (stored.setting ['k']).text? = some [' ', 'x', ',', ' ', ',', 'y'] := by decide
  have hall := lists_are_read_back stored stored none ['k'] ['k']
  obtain ⟨read, hread, hagain⟩ := hall.2 _ htext
  have hvalue : (stored.setting ['k']).toList? = some [['x'], [], ['y']] := by decide
  obtain rfl : read = [['x'], [], ['y']] := Option.some.inj (hread.symm.trans hvalue)
  refine ⟨htexts, hcomma, (hall.1 items (htexts ▸ hcomma)).2 ?_, htext, hagain⟩
  rw [htexts]
  simp [texts]

end Interpolation

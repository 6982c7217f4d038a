import Interpolation.Toml.Document

/-!
# Interpolation.Proofs.DocumentValues

**What every document guarantees of its values**: no key stands twice in a table, at any depth, and
every integer fits into 64 bits.

Keys are distinct because tables grow by `OpenTable.put` alone, which replaces the entry of a key
that is there. The statements of a document reach their tables through `OpenTable.update`, so what
one change keeps every change of a path keeps (`OpenTable.regular_of_update`), then every statement,
then the document. Inline tables are built by the same assignments, so the readers of values carry
the guarantee on the way down.
-/

namespace Interpolation.Toml

/-! ### Values in values -/

/-- `w` is the value itself, or stands in its arrays and tables, at any depth. -/
inductive Inside (w : Value) : Value → Prop
  /-- The value is in itself. -/
  | self : Inside w w
  /-- What is in an item is in the array. -/
  | item {items : List Value} {v : Value} (hv : v ∈ items) (h : Inside w v) :
    Inside w (.array items)
  /-- What is in the value of an entry is in the table. -/
  | entry {entries : List (Text × Value)} {e : Text × Value} (he : e ∈ entries) (h : Inside w e.2) :
    Inside w (.table entries)

theorem Inside.trans {u w v : Value} (h : Inside u w) (h' : Inside w v) : Inside u v := by
  induction h' with
  | self => exact h
  | item hv _ ih => exact .item hv ih
  | entry he _ ih => exact .entry he ih

/-- The value is neither an array nor a table. -/
def Value.HasNoParts : Value → Prop
  | .array _ => False
  | .table _ => False
  | _ => True

theorem Value.HasNoParts.ne_array {v : Value} (h : v.HasNoParts) (items : List Value) :
    v ≠ .array items := by
  rintro rfl
  exact h

theorem Value.HasNoParts.ne_table {v : Value} (h : v.HasNoParts) (entries : List (Text × Value)) :
    v ≠ .table entries := by
  rintro rfl
  exact h

/-- Everything inside the value has the property. -/
def Throughout (P : Value → Prop) (v : Value) : Prop := ∀ w, Inside w v → P w

section Throughout

variable {P : Value → Prop}

theorem throughout_array_iff {items : List Value} :
    Throughout P (.array items) ↔ P (.array items) ∧ ∀ v ∈ items, Throughout P v := by
  constructor
  · intro h
    exact ⟨h _ .self, fun v hv w hw => h w (.item hv hw)⟩
  · rintro ⟨hself, hitems⟩ w hw
    cases hw with
    | self => exact hself
    | item hv hw => exact hitems _ hv w hw

theorem throughout_table_iff {entries : List (Text × Value)} :
    Throughout P (.table entries) ↔ P (.table entries) ∧ ∀ e ∈ entries, Throughout P e.2 := by
  constructor
  · intro h
    exact ⟨h _ .self, fun e he w hw => h w (.entry he hw)⟩
  · rintro ⟨hself, hentries⟩ w hw
    cases hw with
    | self => exact hself
    | entry he hw => exact hentries _ he w hw

/-- A value that has no parts is all that is inside it. -/
theorem throughout_of_hasNoParts {v : Value} (hv : v.HasNoParts) (h : P v) : Throughout P v := by
  intro w hw
  cases hw with
  | self => exact h
  | item => exact hv.elim
  | entry => exact hv.elim

theorem throughout_iff_of_hasNoParts {v : Value} (hv : v.HasNoParts) : Throughout P v ↔ P v :=
  ⟨fun h => h v .self, throughout_of_hasNoParts hv⟩

end Throughout

mutual

/-- What can be tested of a value can be tested throughout it. -/
def decideThroughout (P : Value → Prop) [DecidablePred P] : (v : Value) → Decidable (Throughout P v)
  | .array items =>
    have : Decidable (∀ v ∈ items, Throughout P v) := decideItems P items
    decidable_of_iff' _ throughout_array_iff
  | .table entries =>
    have : Decidable (∀ e ∈ entries, Throughout P e.2) := decideEntries P entries
    decidable_of_iff' _ throughout_table_iff
  | .string _ | .integer _ | .float _ | .boolean _ | .moment _ =>
    decidable_of_iff' (P _) (throughout_iff_of_hasNoParts trivial)

/-- The test throughout the items of an array. -/
def decideItems (P : Value → Prop) [DecidablePred P] :
    (items : List Value) → Decidable (∀ v ∈ items, Throughout P v)
  | [] => isTrue (List.forall_mem_nil _)
  | v :: items =>
    have : Decidable (Throughout P v) := decideThroughout P v
    have : Decidable (∀ v ∈ items, Throughout P v) := decideItems P items
    decidable_of_iff' _ List.forall_mem_cons

/-- The test throughout the values of the entries of a table. -/
def decideEntries (P : Value → Prop) [DecidablePred P] :
    (entries : List (Text × Value)) → Decidable (∀ e ∈ entries, Throughout P e.2)
  | [] => isTrue (List.forall_mem_nil _)
  | (_, v) :: entries =>
    have : Decidable (Throughout P v) := decideThroughout P v
    have : Decidable (∀ e ∈ entries, Throughout P e.2) := decideEntries P entries
    decidable_of_iff' _ List.forall_mem_cons

end

instance (P : Value → Prop) [DecidablePred P] (v : Value) : Decidable (Throughout P v) :=
  decideThroughout P v

/-- What a document guarantees of a value, its parts apart: the keys of a table are distinct, an
integer fits into 64 bits. -/
def Value.Regular : Value → Prop
  | .integer n => (IntRange.signed 64).holds n
  | .table entries => (entries.map Prod.fst).Nodup
  | _ => True

/-! ### Tables while they are read -/

theorem OpenTable.toValues_eq_map (ts : List OpenTable) :
    OpenTable.toValues ts = ts.map OpenTable.toValue := by
  induction ts with
  | nil => rfl
  | cons t ts ih => rw [OpenTable.toValues, ih, List.map_cons]

theorem OpenTable.entryValues_eq_map (entries : List (Text × Item)) :
    OpenTable.entryValues entries = entries.map fun e => (e.1, e.2.toValue) := by
  induction entries with
  | nil => rfl
  | cons e entries ih => rw [OpenTable.entryValues, ih, List.map_cons]

/-- The value of the item keeps the guarantee throughout. -/
def Item.Regular (item : Item) : Prop := Throughout Value.Regular item.toValue

/-- The value of the table keeps the guarantee throughout. -/
def OpenTable.Regular (t : OpenTable) : Prop := Throughout Value.Regular t.toValue

theorem Item.regular_value {v : Value} : (Item.value v).Regular ↔ Throughout Value.Regular v := by
  rw [Item.Regular, Item.toValue]

theorem Item.regular_table {t : OpenTable} : (Item.table t).Regular ↔ t.Regular := by
  rw [Item.Regular, Item.toValue, OpenTable.Regular]

theorem Item.regular_tables {ts : List OpenTable} :
    (Item.tables ts).Regular ↔ ∀ t ∈ ts, t.Regular := by
  rw [Item.Regular, Item.toValue, throughout_array_iff, OpenTable.toValues_eq_map,
    List.forall_mem_map]
  exact and_iff_right trivial

namespace OpenTable

theorem regular_iff {t : OpenTable} :
    t.Regular ↔ (t.entries.map Prod.fst).Nodup ∧ ∀ e ∈ t.entries, e.2.Regular := by
  obtain ⟨implicit, dotted, entries⟩ := t
  rw [Regular, toValue, throughout_table_iff, entryValues_eq_map, List.forall_mem_map,
    Value.Regular, List.map_map]
  rfl

theorem regular_new (implicit dotted : Bool) : (new implicit dotted).Regular :=
  regular_iff.2 ⟨List.nodup_nil, fun _ he => absurd he List.not_mem_nil⟩

theorem Regular.declared {t : OpenTable} (h : t.Regular) : t.declared.Regular :=
  regular_iff.2 (regular_iff (t := t).1 h)

theorem Regular.get? {t : OpenTable} (h : t.Regular) {key : Text} {item : Item}
    (hget : t.get? key = some item) : item.Regular := by
  obtain ⟨before, after, hentries, -⟩ := List.lookup_eq_some_iff.1 hget
  exact (regular_iff.1 h).2 (key, item) (by rw [hentries]; simp)

theorem Regular.erase {t : OpenTable} (h : t.Regular) (key : Text) : (t.erase key).Regular := by
  obtain ⟨hnodup, hentries⟩ := regular_iff.1 h
  refine regular_iff.2 ⟨hnodup.sublist (List.filter_sublist.map _), fun e he => ?_⟩
  exact hentries e ((List.mem_filter.1 he).1)

theorem mem_putEntry {key : Text} {item : Item} {entries : List (Text × Item)} {e : Text × Item}
    (h : e ∈ putEntry key item entries) : e = (key, item) ∨ e ∈ entries := by
  induction entries with
  | nil => exact .inl (by simpa [putEntry] using h)
  | cons entry entries ih =>
    rw [putEntry] at h
    split at h
    · rcases List.mem_cons.1 h with h | h
      · exact .inl h
      · exact .inr (List.mem_cons_of_mem _ h)
    · rcases List.mem_cons.1 h with h | h
      · exact .inr (h ▸ List.mem_cons_self)
      · exact (ih h).imp_right (List.mem_cons_of_mem _)

theorem nodup_putEntry {key : Text} {item : Item} {entries : List (Text × Item)}
    (h : (entries.map Prod.fst).Nodup) : ((putEntry key item entries).map Prod.fst).Nodup := by
  induction entries with
  | nil => simp [putEntry]
  | cons entry entries ih =>
    obtain ⟨hentry, hentries⟩ := List.nodup_cons.1 (List.map_cons ▸ h)
    rw [putEntry]
    split
    · rename_i hkey
      rw [List.map_cons, List.nodup_cons, ← hkey]
      exact ⟨hentry, hentries⟩
    · rename_i hkey
      rw [List.map_cons, List.nodup_cons]
      refine ⟨fun hmem => ?_, ih hentries⟩
      obtain ⟨e, he, heq⟩ := List.mem_map.1 hmem
      rcases mem_putEntry he with rfl | he
      · exact hkey heq.symm
      · exact hentry (heq ▸ List.mem_map_of_mem he)

theorem Regular.put {t : OpenTable} (h : t.Regular) {key : Text} {item : Item}
    (hitem : item.Regular) : (t.put key item).Regular := by
  obtain ⟨hnodup, hentries⟩ := regular_iff.1 h
  refine regular_iff.2 ⟨nodup_putEntry hnodup, fun e he => ?_⟩
  rcases mem_putEntry he with rfl | he
  · exact hitem
  · exact hentries e he

/-- **One change at the end of a path** keeps the guarantee for the whole table if it
keeps it where it is made. -/
theorem regular_of_update {α : Type} {dotted : Bool} {change : OpenTable → Option (OpenTable × α)}
    {P : α → Prop}
    (hchange : ∀ {t t' : OpenTable} {a : α}, t.Regular → change t = some (t', a) →
      t'.Regular ∧ P a)
    {path : List Text} {t t' : OpenTable} {a : α} (ht : t.Regular)
    (h : update dotted change path t = some (t', a)) : t'.Regular ∧ P a := by
  induction path generalizing t t' a with
  | nil => exact hchange ht h
  | cons key path ih =>
    have hdescend {child : OpenTable} {item : OpenTable → Item} (hchild : child.Regular)
        (hitem : ∀ {child' : OpenTable}, child'.Regular → (item child').Regular)
        (h : ((update dotted change path child).map fun p => (t.put key (item p.1), p.2)) =
          some (t', a)) :
        t'.Regular ∧ P a := by
      obtain ⟨⟨child', a'⟩, hupdate, heq⟩ := Option.map_eq_some_iff.1 h
      cases heq
      obtain ⟨hchild', ha⟩ := ih hchild hupdate
      exact ⟨ht.put (hitem hchild'), ha⟩
    rw [update] at h
    split at h
    · exact hdescend (regular_new true dotted) Item.regular_table.2 h
    · cases h
    · rename_i child hget
      split at h
      · cases h
      · exact hdescend (Item.regular_table.1 (ht.get? hget)) Item.regular_table.2 h
    · rename_i ts hget
      have hts := Item.regular_tables.1 (ht.get? hget)
      split at h
      · cases h
      · rename_i last hlast
        have hitem {child' : OpenTable} (hchild' : child'.Regular) :
            (Item.tables (ts.dropLast ++ [child'])).Regular := by
          refine Item.regular_tables.2 fun t ht => ?_
          rcases List.mem_append.1 ht with ht | ht
          · exact hts t (List.dropLast_subset _ ht)
          · exact List.mem_singleton.1 ht ▸ hchild'
        exact hdescend (hts last (List.mem_of_getLast? hlast)) hitem h

theorem Regular.assign {t t' : OpenTable} (ht : t.Regular) {path : List Text} {v : Value}
    (hv : Throughout Value.Regular v) (h : t.assign path v = some t') : t'.Regular := by
  rw [OpenTable.assign] at h
  split at h
  · cases h
  · rename_i key hkey
    obtain ⟨⟨t'', u⟩, hupdate, rfl⟩ := Option.map_eq_some_iff.1 h
    refine (regular_of_update (P := fun _ => True) (fun hchild hchange => ?_) ht hupdate).1
    split at hchange
    · cases hchange
    · cases hchange
      exact ⟨hchild.put (Item.regular_value.2 hv), trivial⟩

end OpenTable

/-! ### Readers -/

namespace Reader

variable {α β : Type}

theorem bind_eq_some_iff {r : Reader α} {next : α → Reader β} {t rest : Text} {b : β} :
    (r >>= next) t = some (b, rest) ↔
      ∃ a rest', r t = some (a, rest') ∧ next a rest' = some (b, rest) := by
  show Reader.bind r next t = _ ↔ _
  rw [Reader.bind]
  cases hr : r t with
  | none => simp
  | some p =>
    constructor
    · intro h
      exact ⟨p.1, p.2, rfl, h⟩
    · rintro ⟨a, rest', heq, h⟩
      cases heq
      exact h

theorem pure_eq_some_iff {a b : α} {t rest : Text} :
    (Pure.pure a : Reader α) t = some (b, rest) ↔ a = b ∧ t = rest := by
  show some (a, t) = _ ↔ _
  rw [Option.some.injEq, Prod.mk.injEq]

theorem exists_of_filterMap_eq_some {f : α → Option β} {r : Reader α} {t rest : Text} {b : β}
    (h : r.filterMap f t = some (b, rest)) : ∃ a, f a = some b := by
  rw [Reader.filterMap] at h
  split at h
  · rename_i a rest' hr
    obtain ⟨b', hb, heq⟩ := Option.map_eq_some_iff.1 h
    cases heq
    exact ⟨a, hb⟩
  · cases h

/-- Every item of a sequence was taken by the reader of items. -/
theorem exists_of_mem_separated {item : Reader α} {separator : Char} {t : Text} {a : α}
    (h : a ∈ (item.separated separator t).1) : ∃ t' rest, item t' = some (a, rest) := by
  fun_induction Reader.separated item separator t with
  | case1 => cases h
  | case2 t first hitem =>
    cases List.mem_singleton.1 h
    exact ⟨t, _, hitem⟩
  | case3 t first c rest _ _ _ hitem =>
    cases List.mem_singleton.1 h
    exact ⟨t, _, hitem⟩
  | case4 t first c rest _ second others _ hothers hitem ih =>
    rcases List.mem_cons.1 h with rfl | h
    · exact ⟨t, _, hitem⟩
    · exact ih (hothers ▸ h)
  | case5 t first c rest _ hitem =>
    cases List.mem_singleton.1 h
    exact ⟨t, _, hitem⟩

end Reader

theorem holds_of_integer {t rest : Text} {n : Int} (h : integer t = some (n, rest)) :
    (IntRange.signed 64).holds n := by
  have hmarked {base : Nat} {p : Char → Bool} {t : Text}
      (h : markedInteger base p t = some (n, rest)) : (IntRange.signed 64).holds n := by
    obtain ⟨digits, hdigits⟩ := Reader.exists_of_filterMap_eq_some h
    simp only at hdigits
    split at hdigits
    · rename_i hholds
      cases hdigits
      exact hholds
    · cases hdigits
  rw [integer.eq_def] at h
  split at h
  · exact hmarked h
  · exact hmarked h
  · exact hmarked h
  · obtain ⟨m, hm⟩ := Reader.exists_of_filterMap_eq_some h
    split at hm
    · rename_i hholds
      cases hm
      exact hholds
    · cases hm

theorem regular_of_scalar {t rest : Text} {v : Value} (h : scalar t = some (v, rest)) :
    Throughout Value.Regular v := by
  have hmap {α : Type} {taken : Option (α × Text)} {f : α × Text → Value}
      (h : (taken.map fun p => (f p, p.2)) = some (v, rest))
      (hf : ∀ p, taken = some p → Throughout Value.Regular (f p)) : Throughout Value.Regular v := by
    obtain ⟨p, htaken, heq⟩ := Option.map_eq_some_iff.1 h
    cases heq
    exact hf p htaken
  rw [scalar.eq_def] at h
  split at h
  · cases h
  · split at h
    · exact hmap h fun p _ => throughout_of_hasNoParts trivial trivial
    · split at h
      · exact hmap h fun p _ => throughout_of_hasNoParts trivial trivial
      · split at h
        · exact hmap h fun p _ => throughout_of_hasNoParts trivial trivial
        · rcases Option.or_eq_some_iff.1 h with h | ⟨-, h⟩
          · exact hmap h fun p _ => throughout_of_hasNoParts trivial trivial
          · rcases Option.or_eq_some_iff.1 h with h | ⟨-, h⟩
            · exact hmap h fun p _ => throughout_of_hasNoParts trivial trivial
            · exact hmap h fun p hn => throughout_of_hasNoParts trivial (holds_of_integer hn)

/-- The items of an array were taken by the reader of items. -/
theorem exists_of_mem_arrayRest {item : Reader Value} {t rest : Text} {vs : List Value} {v : Value}
    (h : arrayRest item t = some (vs, rest)) (hv : v ∈ vs) :
    ∃ t' rest', item t' = some (v, rest') := by
  obtain ⟨p, -, heq⟩ := Option.map_eq_some_iff.1 h
  cases heq
  obtain ⟨t', rest', hspaced⟩ := Reader.exists_of_mem_separated hv
  obtain ⟨_, t'', -, hspaced⟩ := Reader.bind_eq_some_iff.1 hspaced
  obtain ⟨v', rest'', hitem, hspaced⟩ := Reader.bind_eq_some_iff.1 hspaced
  obtain ⟨_, _, -, hspaced⟩ := Reader.bind_eq_some_iff.1 hspaced
  cases (Reader.pure_eq_some_iff.1 hspaced).1
  exact ⟨t'', rest'', hitem⟩

theorem OpenTable.Regular.foldlM_assign {t t' : OpenTable} (ht : t.Regular)
    {l : List (List Text × Value)} (hl : ∀ a ∈ l, Throughout Value.Regular a.2)
    (h : l.foldlM (fun t a => t.assign a.1 a.2) t = some t') : t'.Regular := by
  induction l generalizing t with
  | nil =>
    cases h
    exact ht
  | cons a l ih =>
    obtain ⟨ha, hl⟩ := List.forall_mem_cons.1 hl
    rw [List.foldlM_cons] at h
    obtain ⟨t'', hassign, h⟩ := Option.bind_eq_some_iff.1 h
    exact ih (ht.assign ha hassign) hl h

theorem regular_of_inlineRest {item : Reader Value} {t rest : Text} {v : Value}
    (h : inlineRest item t = some (v, rest))
    (hitem : ∀ {t' rest' : Text} {v' : Value}, item t' = some (v', rest') →
      Throughout Value.Regular v') :
    Throughout Value.Regular v := by
  rw [inlineRest] at h
  split at h
  · cases h
  · rename_i table htable
    obtain ⟨p, -, heq⟩ := Option.map_eq_some_iff.1 h
    cases heq
    refine (OpenTable.regular_new false false).foldlM_assign (fun a ha => ?_) htable
    obtain ⟨t', rest', hassignment⟩ := Reader.exists_of_mem_separated ha
    obtain ⟨path, _, -, hassignment⟩ := Reader.bind_eq_some_iff.1 hassignment
    obtain ⟨_, _, -, hassignment⟩ := Reader.bind_eq_some_iff.1 hassignment
    obtain ⟨_, _, -, hassignment⟩ := Reader.bind_eq_some_iff.1 hassignment
    obtain ⟨v', _, hv', hassignment⟩ := Reader.bind_eq_some_iff.1 hassignment
    obtain ⟨_, _, -, hassignment⟩ := Reader.bind_eq_some_iff.1 hassignment
    cases (Reader.pure_eq_some_iff.1 hassignment).1
    exact hitem hv'

theorem regular_of_value {depth : Nat} {t rest : Text} {v : Value}
    (h : value depth t = some (v, rest)) : Throughout Value.Regular v := by
  induction depth generalizing t v rest with
  | zero => exact regular_of_scalar h
  | succ depth ih =>
    rw [value.eq_def] at h
    simp only at h
    split at h
    · obtain ⟨⟨items, rest'⟩, hitems, heq⟩ := Option.map_eq_some_iff.1 h
      cases heq
      refine throughout_array_iff.2 ⟨trivial, fun v hv => ?_⟩
      obtain ⟨t', rest', hitem⟩ := exists_of_mem_arrayRest hitems hv
      exact ih hitem
    · exact regular_of_inlineRest h ih
    · exact regular_of_scalar h

/-! ### Statements -/

/-- The value of an assignment keeps the guarantee. -/
def Statement.Regular : Statement → Prop
  | .assignment _ v => Throughout Value.Regular v
  | _ => True

theorem regular_of_statement {t rest : Text} {s : Statement} (h : statement t = some (s, rest)) :
    s.Regular := by
  rw [statement.eq_def] at h
  split at h
  · cases h
  · obtain ⟨p, -, heq⟩ := Option.map_eq_some_iff.1 h
    cases heq
    trivial
  · obtain ⟨p, -, heq⟩ := Option.map_eq_some_iff.1 h
    cases heq
    trivial
  · obtain ⟨p, -, heq⟩ := Option.map_eq_some_iff.1 h
    cases heq
    trivial
  · obtain ⟨path, _, -, h⟩ := Reader.bind_eq_some_iff.1 h
    obtain ⟨_, _, -, h⟩ := Reader.bind_eq_some_iff.1 h
    obtain ⟨_, _, -, h⟩ := Reader.bind_eq_some_iff.1 h
    cases (Reader.pure_eq_some_iff.1 h).1
    trivial
  · obtain ⟨path, _, -, h⟩ := Reader.bind_eq_some_iff.1 h
    obtain ⟨_, _, -, h⟩ := Reader.bind_eq_some_iff.1 h
    obtain ⟨_, _, -, h⟩ := Reader.bind_eq_some_iff.1 h
    cases (Reader.pure_eq_some_iff.1 h).1
    trivial
  · obtain ⟨path, _, -, h⟩ := Reader.bind_eq_some_iff.1 h
    obtain ⟨_, _, -, h⟩ := Reader.bind_eq_some_iff.1 h
    obtain ⟨_, _, -, h⟩ := Reader.bind_eq_some_iff.1 h
    obtain ⟨v, _, hv, h⟩ := Reader.bind_eq_some_iff.1 h
    obtain ⟨_, _, -, h⟩ := Reader.bind_eq_some_iff.1 h
    cases (Reader.pure_eq_some_iff.1 h).1
    exact regular_of_value hv

theorem regular_of_mem_statements {t : Text} {l : List Statement} {s : Statement}
    (h : statements? t = some l) (hs : s ∈ l) : s.Regular := by
  fun_induction statements? t generalizing l with
  | case1 =>
    cases h
    cases hs
  | case2 => cases h
  | case3 t _ _ first rest hfirst hlt =>
    rename_i ih
    obtain ⟨others, hothers, rfl⟩ := Option.map_eq_some_iff.1 h
    rcases List.mem_cons.1 hs with rfl | hs
    · exact regular_of_statement hfirst
    · exact ih hothers hs
  | case4 => cases h

/-! ### Documents -/

/-- The tables of a draft keep the guarantee. -/
structure Draft.Regular (d : Draft) : Prop where
  /-- The finished tables do, -/
  root : d.root.Regular
  /-- and the table that keys are added to. -/
  current : d.current.Regular

namespace Draft

theorem Regular.close {d : Draft} (hd : d.Regular) {root : OpenTable} (h : d.close = some root) :
    root.Regular := by
  rw [Draft.close] at h
  split at h
  · cases h
    exact hd.current
  · rename_i key hkey
    obtain ⟨⟨t, u⟩, hupdate, rfl⟩ := Option.map_eq_some_iff.1 h
    refine (OpenTable.regular_of_update (P := fun _ => True) (fun hparent hchange => ?_)
      hd.root hupdate).1
    refine ⟨?_, trivial⟩
    split at hchange
    · cases hchange
      refine hparent.put ?_
      split
      · exact Item.regular_tables.2 fun t ht => List.mem_singleton.1 ht ▸ hd.current
      · exact Item.regular_table.2 hd.current
    · rename_i ts hget
      split at hchange
      · cases hchange
        refine hparent.put (Item.regular_tables.2 fun t ht => ?_)
        rcases List.mem_append.1 ht with ht | ht
        · exact Item.regular_tables.1 (hparent.get? hget) t ht
        · exact List.mem_singleton.1 ht ▸ hd.current
      · cases hchange
    · split at hchange
      · cases hchange
      · cases hchange
        exact hparent.put (Item.regular_table.2 hd.current)
    · cases hchange

theorem regular_openTable {root : OpenTable} (hroot : root.Regular) {path : List Text} {d : Draft}
    (h : openTable root path = some d) : d.Regular := by
  rw [openTable] at h
  split at h
  · cases h
  · rename_i key hkey
    obtain ⟨⟨t, current⟩, hupdate, rfl⟩ := Option.map_eq_some_iff.1 h
    suffices hboth : t.Regular ∧ current.Regular from ⟨hboth.1, hboth.2⟩
    refine OpenTable.regular_of_update (P := OpenTable.Regular) (fun hparent hchange => ?_)
      hroot hupdate
    split at hchange
    · cases hchange
      exact ⟨hparent, OpenTable.regular_new false false⟩
    · rename_i child hget
      split at hchange
      · cases hchange
        exact ⟨hparent.erase key, (Item.regular_table.1 (hparent.get? hget)).declared⟩
      · cases hchange
    · cases hchange

theorem regular_openArrayTable {root : OpenTable} (hroot : root.Regular)
    {path : List Text} {d : Draft} (h : openArrayTable root path = some d) : d.Regular := by
  rw [openArrayTable] at h
  split at h
  · cases h
  · rename_i key hkey
    obtain ⟨⟨t, u⟩, hupdate, rfl⟩ := Option.map_eq_some_iff.1 h
    have ht := OpenTable.regular_of_update (P := fun _ => True) (fun hparent hchange => by
      refine ⟨?_, trivial⟩
      split at hchange
      · cases hchange
        exact hparent.put (Item.regular_tables.2 nofun)
      · cases hchange
        exact hparent
      · cases hchange) hroot hupdate
    exact ⟨ht.1, OpenTable.regular_new false false⟩

theorem Regular.step {d d' : Draft} (hd : d.Regular) {s : Statement} (hs : s.Regular)
    (h : d.step s = some d') : d'.Regular := by
  cases s with
  | blank =>
    cases h
    exact hd
  | assignment path v =>
    obtain ⟨current, hassign, rfl⟩ := Option.map_eq_some_iff.1 h
    exact ⟨hd.root, hd.current.assign hs hassign⟩
  | header path =>
    obtain ⟨root, hclose, h⟩ := Option.bind_eq_some_iff.1 h
    exact regular_openTable (hd.close hclose) h
  | arrayHeader path =>
    obtain ⟨root, hclose, h⟩ := Option.bind_eq_some_iff.1 h
    exact regular_openArrayTable (hd.close hclose) h

theorem Regular.foldlM_step {d d' : Draft} (hd : d.Regular) {l : List Statement}
    (hl : ∀ s ∈ l, s.Regular) (h : l.foldlM Draft.step d = some d') : d'.Regular := by
  induction l generalizing d with
  | nil =>
    cases h
    exact hd
  | cons s l ih =>
    obtain ⟨hs, hl⟩ := List.forall_mem_cons.1 hl
    rw [List.foldlM_cons] at h
    obtain ⟨d'', hstep, h⟩ := Option.bind_eq_some_iff.1 h
    exact ih (hd.step hs hstep) hl h

end Draft

/-- **Documents keep the guarantee** in every table and for every integer. -/
theorem regular_of_document {t : Text} {entries : List (Text × Value)}
    (h : document? t = some entries) : Throughout Value.Regular (.table entries) := by
  obtain ⟨l, hl, h⟩ := Option.bind_eq_some_iff.1 h
  obtain ⟨d, hd, h⟩ := Option.bind_eq_some_iff.1 h
  obtain ⟨root, hroot, rfl⟩ := Option.map_eq_some_iff.1 h
  have hnew : Draft.new.Regular :=
    ⟨OpenTable.regular_new false false, OpenTable.regular_new false false⟩
  have hdraft : d.Regular := hnew.foldlM_step (fun s hs => regular_of_mem_statements hl hs) hd
  have hregular : root.Regular := hdraft.close hroot
  obtain ⟨implicit, dotted, entries⟩ := root
  exact hregular

end Interpolation.Toml

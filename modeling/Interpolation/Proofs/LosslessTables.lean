import Interpolation.Proofs.DottedNames
import Interpolation.Proofs.FlatTables
import Interpolation.Proofs.Numerals

/-!
# Interpolation.Proofs.LosslessTables

**Flat tables lose nothing** as long as all names are plain.

Joined plain names are read back (`pathNames_join`), so no two leaves share a key and none is
overwritten. The texts are those that the values of templates have: a value without moments and
tables in it has a counterpart among these (`Flat.counterpart?`), and both have the same text, since
each writes its lists with commas and no spaces.
-/

namespace Interpolation

open Toml (Leaf LeafAt Inside Throughout Traverses tableLeaves)

/-- There is a moment in the value, at any depth, or it is one. -/
def Toml.Value.HasMoment (v : Toml.Value) : Prop := ∃ m, Inside (.moment m) v

namespace Flat

/-! ### Counterparts -/

mutual

/-- The value of templates that is the same string, number, truth value, or list of such. -/
def counterpart? : Toml.Value → Option Value
  | .string t => some (.text t)
  | .integer n => some (.int (.ofInt n))
  | .float x => some (.float x)
  | .boolean b => some (.bool b)
  | .array items => (counterparts? items).map .list
  | .moment _ => none
  | .table _ => none

/-- The counterparts of the items of an array. -/
def counterparts? : List Toml.Value → Option (List Value)
  | [] => some []
  | item :: items =>
    match counterpart? item, counterparts? items with
    | some v, some vs => some (v :: vs)
    | _, _ => none

end

theorem exists_counterparts {items : List Toml.Value}
    (h : ∀ v ∈ items, ∃ w, counterpart? v = some w) : ∃ ws, counterparts? items = some ws := by
  induction items with
  | nil => exact ⟨[], rfl⟩
  | cons v items ih =>
    obtain ⟨⟨w, hw⟩, hitems⟩ := List.forall_mem_cons.1 h
    obtain ⟨ws, hws⟩ := ih hitems
    exact ⟨w :: ws, by rw [counterparts?, hw, hws]⟩

/-- Only tables and moments have no counterpart, and the arrays that they are in. -/
theorem exists_counterpart {v : Toml.Value} (htable : ¬ v.HasTable) (hmoment : ¬ v.HasMoment) :
    ∃ w, counterpart? v = some w := by
  induction v using Toml.Value.inductionOnParts with
  | plain v hplain =>
    cases v with
    | array items => exact hplain.elim
    | table entries => exact hplain.elim
    | moment m => exact absurd ⟨m, .self⟩ hmoment
    | _ => exact ⟨_, rfl⟩
  | array items ih =>
    obtain ⟨ws, hws⟩ := exists_counterparts fun v hv =>
      ih v hv (fun ⟨entries, h⟩ => htable ⟨entries, .item hv h⟩)
        fun ⟨m, h⟩ => hmoment ⟨m, .item hv h⟩
    exact ⟨.list ws, by rw [counterpart?, hws, Option.map_some]⟩
  | table entries ih => exact absurd ⟨entries, .self⟩ htable

theorem texts?_eq_of_counterparts {items : List Toml.Value} {ws : List Value}
    (h : ∀ v ∈ items, ∀ w, counterpart? v = some w → text? v = some (w.toText .comma))
    (hws : counterparts? items = some ws) : texts? items = some (Value.toTexts .comma ws) := by
  induction items generalizing ws with
  | nil =>
    cases hws
    rfl
  | cons v items ih =>
    obtain ⟨hv, hitems⟩ := List.forall_mem_cons.1 h
    rw [counterparts?] at hws
    split at hws
    · rename_i w ws' hw hws'
      cases hws
      rw [texts?, hv w hw, ih hitems hws', Value.toTexts]
    · cases hws

/-- **Counterparts have the same text.** -/
theorem text?_eq_of_counterpart {v : Toml.Value} {w : Value} (hv : Throughout Toml.Value.Settled v)
    (hw : counterpart? v = some w) : text? v = some (w.toText .comma) := by
  induction v using Toml.Value.inductionOnParts generalizing w with
  | plain v hplain =>
    cases v with
    | array items => exact hplain.elim
    | table entries => exact hplain.elim
    | moment m => cases hw
    | integer n =>
      cases hw
      rw [text?, Value.toText, IntRange.toInt_ofInt_of_holds (hv _ .self)]
    | _ =>
      cases hw
      rfl
  | array items ih =>
    rw [counterpart?] at hw
    obtain ⟨ws, hws, rfl⟩ := Option.map_eq_some_iff.1 hw
    have hitems := (Toml.throughout_array_iff.1 hv).2
    rw [text?, texts?_eq_of_counterparts (fun v hmem w hw => ih v hmem (hitems v hmem) hw) hws]
    rfl
  | table entries ih => cases hw

/-- A counterpart is stored as its text. -/
theorem stored_of_counterpart (folder : Option FilePath) {v : Toml.Value} {w : Value}
    (h : counterpart? v = some w) : w.stored folder = some (w.toText .comma) := by
  cases v with
  | array items =>
    rw [counterpart?] at h
    obtain ⟨ws, -, rfl⟩ := Option.map_eq_some_iff.1 h
    rfl
  | moment m => cases h
  | table entries => cases h
  | _ =>
    cases h
    rfl

/-! ### Plain names -/

/-- The names on the way to the leaves are plain. -/
def PlainlyNamed (leaves : List Leaf) : Prop := ∀ l ∈ leaves, ∀ name ∈ l.path, IsPlainName name

/-- If the value is a table, the names of its entries are plain. -/
def HasPlainNames : Toml.Value → Prop
  | .table entries => ∀ e ∈ entries, IsPlainName e.1
  | _ => True

instance : DecidablePred HasPlainNames
  | .table entries => inferInstanceAs (Decidable (∀ e ∈ entries, IsPlainName e.1))
  | .string _ | .integer _ | .float _ | .boolean _ | .moment _ | .array _ => isTrue trivial

theorem plain_of_leafAt {values : List (Text × Toml.Value)} {path : List Text} {v : Toml.Value}
    (h : Throughout HasPlainNames (.table values)) (hleaf : LeafAt values path v) :
    ∀ name ∈ path, IsPlainName name := by
  induction hleaf with
  | here he _ => exact List.forall_mem_singleton.2 (h _ .self _ he)
  | under he _ ih =>
    exact List.forall_mem_cons.2 ⟨h _ .self _ he, ih ((Toml.throughout_table_iff.1 h).2 _ he)⟩

/-- It is enough that every table has plain names. -/
theorem plainlyNamed_of_tables {values : List (Text × Toml.Value)}
    (h : Throughout HasPlainNames (.table values)) : PlainlyNamed (tableLeaves values) :=
  fun _ hl => plain_of_leafAt h (Toml.mem_tableLeaves_iff.1 hl)

section PlainNames

variable {values : List (Text × Toml.Value)} (h : PlainlyNamed (tableLeaves values))

include h

/-- The key of a leaf tells its path. -/
theorem pathNames_dottedKey {l : Leaf} (hl : l ∈ tableLeaves values) :
    pathNames (dottedKey l.path) = l.path :=
  pathNames_join (Toml.mem_tableLeaves_iff.1 hl).path_ne_nil (h l hl)

theorem storedKey_eq_dottedKey {l : Leaf} (hl : l ∈ tableLeaves values) :
    storedKey l.path = dottedKey l.path := by
  refine storedKey_eq_dottedKey_iff.2 ?_
  rintro ⟨name, rest, hpath⟩
  have hempty : IsPlainName [] := h l hl [] (by simp [hpath])
  exact hempty.1 rfl

theorem nodup_dottedKeys (hpaths : ((tableLeaves values).map Leaf.path).Nodup) :
    ((tableLeaves values).map fun l => dottedKey l.path).Nodup := by
  have hread : ((tableLeaves values).map fun l => dottedKey l.path).map pathNames =
      (tableLeaves values).map Leaf.path := by
    rw [List.map_map]
    exact List.map_congr_left fun l hl => pathNames_dottedKey h hl
  exact List.Nodup.of_map pathNames (hread ▸ hpaths)

end PlainNames

end Flat

/-! ### Files with plain names -/

open Flat ConfigurationFile

/-- **Plain tables lose nothing.** If the names in the table of values are plain, a file that
is read has one key for each leaf and no other. The key tells the path of the leaf, and what
is stored under it is the text of the leaf; without moments in the leaf, that is what storing
its counterpart stores. -/
theorem plain_tables_lose_nothing {folder : Option FilePath} {t : Text} {file : ConfigurationFile}
    {values : List (Text × Toml.Value)} (hok : ofText folder t = .ok file)
    (hparts : parts? t = some (file.maxDepth, values))
    (hplain : PlainlyNamed (tableLeaves values)) :
    Traverses values (tableLeaves values) ∧ ((tableLeaves values).map Leaf.path).Nodup ∧
    ((tableLeaves values).map fun l => dottedKey l.path).Nodup ∧
    file.values.keys.Perm ((tableLeaves values).map fun l => dottedKey l.path) ∧
    file.values.size = (tableLeaves values).length ∧
    ∀ l ∈ tableLeaves values, pathNames (dottedKey l.path) = l.path ∧
      ∃ text, file.values.get? (dottedKey l.path) = some (some text) ∧ text? l.value = some text ∧
        (¬ l.value.HasMoment → ∃ v, counterpart? l.value = some v ∧
          ∀ (c : Configuration) (folder : Option FilePath),
            (c.setValue folder (dottedKey l.path) v).get? (dottedKey l.path) =
              some (some text)) := by
  have hsettled := settled_of_parts hparts
  have htraverses := Toml.traverses_tableLeaves hsettled
  have hnodup := nodup_dottedKeys hplain htraverses.nodup_paths
  have hholds : Holds file.values dottedKey (tableLeaves values) :=
    (holds_of_ok hparts hok).2.congr fun l hl => storedKey_eq_dottedKey hplain hl
  have hperm : file.values.keys.Perm ((tableLeaves values).map fun l => dottedKey l.path) := by
    refine (List.perm_ext_iff_of_nodup file.values.nodup_keys hnodup).2 fun key => ?_
    rw [hholds.mem_keys_iff, List.mem_map]
  refine ⟨htraverses, htraverses.nodup_paths, hnodup, hperm, ?_,
    fun l hl => ⟨pathNames_dottedKey hplain hl, ?_⟩⟩
  · simpa [Configuration.keys, Configuration.size] using hperm.length_eq
  · have hget := hholds.get?_of_nodup hnodup hl
    cases htext : text? l.value with
    | none => exact absurd (htext ▸ hget) (hholds.ne_null _)
    | some text =>
      refine ⟨text, htext ▸ hget, rfl, fun hmoment => ?_⟩
      have hleaf := Toml.mem_tableLeaves_iff.1 hl
      have htable : ¬ l.value.HasTable := isSome_text?_iff.1 (by rw [htext, Option.isSome_some])
      obtain ⟨v, hv⟩ := exists_counterpart htable hmoment
      have hvalue := text?_eq_of_counterpart (fun w hw => hsettled w (hw.trans hleaf.inside)) hv
      refine ⟨v, hv, fun c folder => ?_⟩
      rw [Configuration.setValue, Configuration.get?_insert, if_pos rfl,
        stored_of_counterpart folder hv, ← hvalue, htext]

/-- Three leaves at different depths, one of them with arrays in arrays. The document has them in
another order, and a table without leaves besides. -/
theorem plain_tables_lose_nothing_with_nested_arrays :
    let t :=
      "[values.b.d]\ne = true\n[values.b]\nc = [1, [\"x\", []]]\n[values]\na = 7\n[values.f]".toList
    ∃ file values, ofText none t = .ok file ∧ parts? t = some (file.maxDepth, values) ∧
      Throughout HasPlainNames (.table values) ∧ PlainlyNamed (tableLeaves values) ∧
      (tableLeaves values).map Leaf.path = [[['a']], [['b'], ['c']], [['b'], ['d'], ['e']]] ∧
      file.values.entries = [(['a'], some ['7']), (['b', '.', 'c'], some ['1', ',', 'x', ',']),
        (['b', '.', 'd', '.', 'e'], some ['t', 'r', 'u', 'e'])] ∧
      file.values.size = (tableLeaves values).length := by
  intro t
  have hentries : (ofText none t).toOption.map (fun file => file.values.entries) =
      some [(['a'], some ['7']), (['b', '.', 'c'], some ['1', ',', 'x', ',']),
        (['b', '.', 'd', '.', 'e'], some ['t', 'r', 'u', 'e'])] := by decide +kernel
  have hvalues : (parts? t).map (fun p => ((tableLeaves p.2).map Leaf.path,
      decide (Throughout HasPlainNames (.table p.2)))) =
      some ([[['a']], [['b'], ['c']], [['b'], ['d'], ['e']]], true) := by decide +kernel
  obtain ⟨file, hok, hentries⟩ := exists_of_entries hentries
  obtain ⟨values, hparts⟩ := exists_parts_of_ok hok
  rw [hparts] at hvalues
  obtain ⟨hpaths, hnames⟩ := Prod.mk.inj (Option.some.inj hvalues)
  have htables : Throughout HasPlainNames (.table values) := of_decide_eq_true hnames
  have hplain := plainlyNamed_of_tables htables
  obtain ⟨-, -, -, -, hsize, -⟩ := plain_tables_lose_nothing hok hparts hplain
  exact ⟨file, values, hok, hparts, htables, hplain, hpaths, hentries, hsize⟩

end Interpolation

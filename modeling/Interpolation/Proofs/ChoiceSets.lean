import Interpolation.Proofs.ListTexts

/-!
# Interpolation.Proofs.ChoiceSets

**The choices that a text names**, one for each item that names one, in the order of
the items and each once.

A choice is picked by an item that equals it, or differs from it only in the case of ASCII letters.
Neither blanks nor the comma are letters, so whatever the choices look like, one that is picked can
be an item itself (`Setting.IsItem.of_map_toLower`). It picks itself then (`pickChoice_of_picked`),
which makes reading stable: the choices that were read, joined with commas, are read again as the
same choices (`Setting.pickChoices_joined`).

The set is built up choice by choice; `pickChoices_eq` says that this leaves the first
occurrences of the choices picked.
-/

namespace Interpolation

/-! ### First occurrences -/

section FirstOccurrences

variable {α : Type} [BEq α] [LawfulBEq α]

theorem nodup_eraseDups (l : List α) : l.eraseDups.Nodup := by
  match l with
  | [] => exact List.nodup_nil
  | a :: l =>
    rw [List.eraseDups_cons, List.nodup_cons]
    have hlater : a ∉ (l.filter fun b => !b == a).eraseDups := by simp [List.mem_eraseDups]
    exact ⟨hlater, nodup_eraseDups _⟩
termination_by l.length
decreasing_by exact Nat.lt_succ_of_le (List.length_filter_le _ _)

theorem eraseDups_of_nodup {l : List α} (h : l.Nodup) : l.eraseDups = l := by
  induction l with
  | nil => rfl
  | cons a l ih =>
    obtain ⟨hmem, hnodup⟩ := List.nodup_cons.1 h
    have hfilter : (l.filter fun b => !b == a) = l := by
      refine List.filter_eq_self.2 fun b hb => ?_
      have hne : b ≠ a := fun heq => hmem (heq ▸ hb)
      simpa using hne
    rw [List.eraseDups_cons, hfilter, ih hnodup]

theorem eraseDups_append_cons_of_mem {a : α} {l : List α} (h : a ∈ l) (l' : List α) :
    (l ++ a :: l').eraseDups = (l ++ l').eraseDups := by
  have hcontains : ¬ l.contains a = false := by simpa using h
  rw [List.eraseDups_append, List.eraseDups_append, List.cons_removeAll, if_neg hcontains]

end FirstOccurrences

/-! ### Letter case -/

theorem isUpper_iff {c : Char} : c.isUpper ↔ 65 ≤ c.toNat ∧ c.toNat ≤ 90 := by
  unfold Char.isUpper
  rw [decide_eq_true_iff]
  rfl

theorem isLower_iff {c : Char} : c.isLower ↔ 97 ≤ c.toNat ∧ c.toNat ≤ 122 := by
  unfold Char.isLower
  rw [Bool.and_eq_true, decide_eq_true_iff, decide_eq_true_iff]
  rfl

theorem isAlpha_iff {c : Char} :
    c.isAlpha ↔ 65 ≤ c.toNat ∧ c.toNat ≤ 90 ∨ 97 ≤ c.toNat ∧ c.toNat ≤ 122 := by
  rw [← isUpper_iff, ← isLower_iff, ← Bool.or_eq_true]
  rfl

/-- The small letters stand 32 places behind the capital ones. -/
theorem toNat_toLower (c : Char) :
    c.toLower.toNat = if 65 ≤ c.toNat ∧ c.toNat ≤ 90 then c.toNat + 32 else c.toNat := by
  have hcapital : (c.val ≥ 'A'.val ∧ c.val ≤ 'Z'.val) ↔ 65 ≤ c.toNat ∧ c.toNat ≤ 90 := Iff.rfl
  unfold Char.toLower
  by_cases hc : 65 ≤ c.toNat ∧ c.toNat ≤ 90
  · have hval : c.val.toNat = c.toNat := rfl
    have hstep : ('a'.val - 'A'.val).toNat = 32 := rfl
    rw [dif_pos (hcapital.2 hc), if_pos hc]
    show (c.val + ('a'.val - 'A'.val)).toNat = c.toNat + 32
    rw [UInt32.toNat_add, hval, hstep, Nat.mod_eq_of_lt (by omega)]
  · rw [dif_neg (mt hcapital.1 hc), if_neg hc]

/-- Characters that differ in their case only are letters. -/
theorem eq_or_isAlpha_of_toLower_eq {c d : Char} (h : c.toLower = d.toLower) :
    c = d ∨ c.isAlpha ∧ d.isAlpha := by
  have hnat : c.toLower.toNat = d.toLower.toNat := congrArg Char.toNat h
  rw [toNat_toLower, toNat_toLower] at hnat
  rw [isAlpha_iff, isAlpha_iff, ← Char.toNat_inj]
  split at hnat <;> split at hnat <;> omega

theorem not_isBlank_of_isAlpha {c : Char} (h : c.isAlpha) : ¬ isBlank c := by
  rw [isAlpha_iff] at h
  simp only [isBlank, Bool.or_eq_true, Bool.and_eq_true, decide_eq_true_iff, beq_iff_eq]
  omega

theorem not_isBlank_of_map_toLower {o o' : Option Char}
    (h : o.map Char.toLower = o'.map Char.toLower) (hblank : ∀ d ∈ o', ¬ isBlank d) :
    ∀ c ∈ o, ¬ isBlank c := by
  intro c hc
  rw [Option.mem_def.1 hc] at h
  obtain ⟨d, hd, hlower⟩ := Option.map_eq_some_iff.1 h.symm
  rcases eq_or_isAlpha_of_toLower_eq hlower with rfl | hletters
  · exact hblank d hd
  · exact not_isBlank_of_isAlpha hletters.2

theorem mem_of_map_toLower {s t : Text} {c : Char} (hc : ¬ c.isAlpha)
    (h : s.map Char.toLower = t.map Char.toLower) (hmem : c ∈ s) : c ∈ t := by
  have hlower : c.toLower ∈ t.map Char.toLower := h ▸ List.mem_map_of_mem hmem
  obtain ⟨d, hd, hlower⟩ := List.mem_map.1 hlower
  rcases eq_or_isAlpha_of_toLower_eq hlower with rfl | hletters
  · exact hd
  · exact absurd hletters.2 hc

/-- Changing the case of letters makes no blank and no comma. -/
theorem Setting.IsItem.of_map_toLower {s t : Text} (ht : IsItem t)
    (h : s.map Char.toLower = t.map Char.toLower) : IsItem s := by
  have hhead : s.head?.map Char.toLower = t.head?.map Char.toLower := by
    rw [← List.head?_map, h, List.head?_map]
  have hlast : s.getLast?.map Char.toLower = t.getLast?.map Char.toLower := by
    rw [← List.getLast?_map, h, List.getLast?_map]
  exact ⟨⟨not_isBlank_of_map_toLower hhead ht.trimmed.head_not,
      not_isBlank_of_map_toLower hlast ht.trimmed.last_not⟩,
    fun hcomma => ht.no_comma (mem_of_map_toLower (by decide) h hcomma)⟩

/-! ### Picking -/

section Picking

variable {choices : List Text} {name choice : Text}

theorem pickChoice_nil (choices : List Text) : pickChoice [] choices = none := if_pos rfl

/-- **A choice picks itself**, whatever other choices look like it. -/
theorem pickChoice_of_mem (hne : name ≠ []) (h : name ∈ choices) :
    pickChoice name choices = some name := by
  rw [pickChoice, if_neg hne, if_pos h]

theorem ne_nil_of_pickChoice_eq_some (h : pickChoice name choices = some choice) : name ≠ [] := by
  intro hnil
  rw [hnil, pickChoice_nil] at h
  cases h

/-- A choice is picked by a name that equals it up to the case of letters. -/
theorem map_toLower_of_pickChoice (h : pickChoice name choices = some choice) :
    choice.map Char.toLower = name.map Char.toLower := by
  rw [pickChoice, if_neg (ne_nil_of_pickChoice_eq_some h)] at h
  split at h
  · cases h
    rfl
  · have hsame := List.find?_some h
    exact eq_of_beq hsame

theorem pickChoice_of_picked (h : pickChoice name choices = some choice) :
    pickChoice choice choices = some choice := by
  refine pickChoice_of_mem (fun hnil => ne_nil_of_pickChoice_eq_some h ?_)
    (mem_of_pickChoice_eq_some h)
  have hletters := map_toLower_of_pickChoice h
  rw [hnil, List.map_nil] at hletters
  exact List.map_eq_nil_iff.1 hletters.symm

theorem pickChoices_eq_of_nodup {taken : List Text} (htaken : taken.Nodup) (items : List Text) :
    pickChoices choices taken items =
      (taken ++ items.filterMap fun item => pickChoice item choices).eraseDups := by
  induction items generalizing taken with
  | nil => rw [pickChoices, List.filterMap_nil, List.append_nil, eraseDups_of_nodup htaken]
  | cons item items ih =>
    rw [pickChoices, List.filterMap_cons]
    cases hpick : pickChoice item choices with
    | none => exact ih htaken
    | some choice =>
      dsimp only
      by_cases hmem : choice ∈ taken
      · rw [if_pos hmem, ih htaken, eraseDups_append_cons_of_mem hmem]
      · have hnodup : (taken ++ [choice]).Nodup := by
          rw [← List.concat_eq_append]
          exact htaken.concat hmem
        rw [if_neg hmem, ih hnodup, List.append_assoc, List.singleton_append]

/-- **Every item picks for itself**; of the choices picked the first occurrences are left. -/
theorem pickChoices_eq (choices items : List Text) :
    pickChoices choices [] items =
      (items.filterMap fun item => pickChoice item choices).eraseDups :=
  pickChoices_eq_of_nodup List.nodup_nil items

theorem nodup_pickChoices (choices items : List Text) : (pickChoices choices [] items).Nodup := by
  rw [pickChoices_eq]
  exact nodup_eraseDups _

theorem mem_pickChoices_iff {items : List Text} :
    choice ∈ pickChoices choices [] items ↔
      ∃ item ∈ items, pickChoice item choices = some choice := by
  rw [pickChoices_eq, List.mem_eraseDups, List.mem_filterMap]

end Picking

/-! ### Sets -/

namespace Setting

variable {choices items : List Text}

/-- An item is trimmed already. -/
theorem toChoice?_of_isItem {item : Text} (h : IsItem item) :
    toChoice? choices ⟨some item⟩ = pickChoice item choices := by
  rw [toChoice?, Option.bind_some, h.trimmed.trim_eq]

/-- The set has the choices that the items pick. -/
structure PickedBy (choices items set : List Text) : Prop where
  /-- Each item is read as a choice, and every choice stands where it was picked first. -/
  eq_eraseDups : set = (items.filterMap fun item => toChoice? choices ⟨some item⟩).eraseDups
  /-- No choice stands twice. -/
  nodup : set.Nodup
  /-- Only choices are picked. -/
  subset : ∀ choice ∈ set, choice ∈ choices
  /-- An item picks a choice that equals it up to the case of letters. -/
  same_letters : ∀ item ∈ items, ∀ choice, toChoice? choices ⟨some item⟩ = some choice →
    choice ∈ set ∧ choice.map Char.toLower = item.map Char.toLower
  /-- An item that is a choice picks itself. -/
  own_choice : ∀ item ∈ items, item ≠ [] → item ∈ choices →
    toChoice? choices ⟨some item⟩ = some item
  /-- An empty item picks nothing. -/
  no_choice : toChoice? choices ⟨some []⟩ = none

theorem pickedBy_pickChoices (h : ∀ item ∈ items, IsItem item) :
    PickedBy choices items (pickChoices choices [] items) where
  eq_eraseDups := by
    rw [pickChoices_eq, List.filterMap_congr fun item hitem => toChoice?_of_isItem (h item hitem)]
  nodup := nodup_pickChoices choices items
  subset choice hchoice := by
    obtain ⟨item, -, hpick⟩ := mem_pickChoices_iff.1 hchoice
    exact mem_of_pickChoice_eq_some hpick
  same_letters item hitem choice hpick := by
    rw [toChoice?_of_isItem (h item hitem)] at hpick
    exact ⟨mem_pickChoices_iff.2 ⟨item, hitem, hpick⟩, map_toLower_of_pickChoice hpick⟩
  own_choice item hitem hne hmem := by
    rw [toChoice?_of_isItem (h item hitem), pickChoice_of_mem hne hmem]
  no_choice := pickChoice_nil choices

/-- **The choices that items pick pick themselves**, when they are written as items. -/
theorem pickChoices_joined (h : ∀ item ∈ items, IsItem item) :
    pickChoices choices [] (Setting.items (Text.join [','] (pickChoices choices [] items))) =
      pickChoices choices [] items := by
  have hpicked : ∀ choice ∈ pickChoices choices [] items,
      IsItem choice ∧ pickChoice choice choices = some choice := by
    intro choice hchoice
    obtain ⟨item, hitem, hpick⟩ := mem_pickChoices_iff.1 hchoice
    exact ⟨(h item hitem).of_map_toLower (map_toLower_of_pickChoice hpick),
      pickChoice_of_picked hpick⟩
  have hne : pickChoices choices [] items ≠ [[]] := by
    intro hnil
    have hpick := (hpicked [] (hnil ▸ List.mem_singleton_self _)).2
    rw [pickChoice_nil] at hpick
    cases hpick
  rw [items_join_eq_self (fun choice hchoice => (hpicked choice hchoice).1) hne,
    pickChoices_eq choices (pickChoices choices [] items),
    List.filterMap_congr fun choice hchoice => (hpicked choice hchoice).2, List.filterMap_some,
    eraseDups_of_nodup (nodup_pickChoices choices items)]

/-- A text without commas picks what one item picks. -/
theorem pickChoices_items_of_not_mem {t : Text} (h : ',' ∉ t) :
    pickChoices choices [] (Setting.items t) = (toChoice? choices ⟨some t⟩).toList := by
  rw [items_of_not_mem h, toChoice?, Option.bind_some]
  by_cases hblank : t.trim = []
  · rw [if_pos hblank, hblank, pickChoice_nil]
    rfl
  · have hone : ([t.trim].filterMap fun item => pickChoice item choices) =
        (pickChoice t.trim choices).toList := by
      cases hpick : pickChoice t.trim choices <;> simp [hpick]
    rw [if_neg hblank, pickChoices_eq, hone]
    exact eraseDups_of_nodup (Option.toList_nodup _)

end Setting

/-- **A set of choices is picked item by item.** What is read from a stored text are the choices
that its items pick (`Setting.PickedBy`). Joined with commas and stored, under any key of any
configuration, they are read again. Without commas in the text they are the choice that the text
picks, if it picks one. -/
theorem choice_sets_follow_items (c d : Configuration) (folder : Option FilePath) (key key' : Text)
    (choices : List Text) {t : Text} (h : (c.setting key).text? = some t) :
    ∃ items set, (c.setting key).toList? = some items ∧
      (c.setting key).toChoiceSet? choices = some set ∧
      Setting.PickedBy choices items set ∧
      ((d.setValue folder key' (.text (Text.join [','] set))).setting key').toChoiceSet? choices =
        some set ∧
      (',' ∉ t → set = ((c.setting key).toChoice? choices).toList) := by
  have hsetting : c.setting key = ⟨some t⟩ := by rw [← h]
  have hitems : ∀ item ∈ Setting.items t, Setting.IsItem item :=
    fun item => Setting.isItem_of_mem_items
  have hstored : ∀ text : Text, (d.setValue folder key' (.text text)).setting key' = ⟨some text⟩ :=
    fun text => d.setting_setValue folder key' (.text text)
  rw [hsetting]
  refine ⟨Setting.items t, pickChoices choices [] (Setting.items t), rfl, rfl,
    Setting.pickedBy_pickChoices hitems, ?_, Setting.pickChoices_items_of_not_mem⟩
  rw [hstored, Setting.toChoiceSet?, Setting.toList?, Option.map_some, Option.map_some,
    Setting.pickChoices_joined hitems]

/-- Of two choices that differ in case only, each is picked by its own spelling, and the last by any
other; the choice with a comma is never picked. -/
theorem choice_sets_follow_items_with_case_variants :
    let choices : List Text := [['a', 'B'], ['A', 'b'], [',', 'c']]
    let text : Text := [' ', 'A', 'b', ',', 'a', 'B', ' ', ',', 'c', ',', ',', 'a', 'b']
    let stored := Configuration.empty.insert ['k'] (some text)
    (stored.setting ['k']).text? = some text ∧
      (stored.setting ['k']).toChoiceSet? choices = some [['A', 'b'], ['a', 'B']] ∧
      ((stored.setValue none ['k'] (.text (Text.join [','] [['A', 'b'], ['a', 'B']]))).setting
          ['k']).toChoiceSet? choices =
        some [['A', 'b'], ['a', 'B']] := by
  intro choices text stored
  have htext : (stored.setting ['k']).text? = some text := by decide
  obtain ⟨-, set, -, hset, -, hagain, -⟩ :=
    choice_sets_follow_items stored stored none ['k'] ['k'] choices htext
  have hvalue : (stored.setting ['k']).toChoiceSet? choices = some [['A', 'b'], ['a', 'B']] := by
    decide +kernel
  obtain rfl : set = [['A', 'b'], ['a', 'B']] := Option.some.inj (hset.symm.trans hvalue)
  exact ⟨htext, hset, hagain⟩

end Interpolation

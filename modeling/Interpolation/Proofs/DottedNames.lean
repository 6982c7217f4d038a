import Interpolation.Navigation

/-!
# Interpolation.Proofs.DottedNames

**Names joined with dots are read back**, if none of them is empty or has a dot (`IsPlainName`): the
names of the joined text are the names that were joined, whatever their number (`pathNames_join`).
So no two lists of plain names give one text.
-/

namespace Interpolation

/-- A name that a path of several names can hold. -/
def IsPlainName (name : Text) : Prop := name ≠ [] ∧ '.' ∉ name

instance (name : Text) : Decidable (IsPlainName name) := inferInstanceAs (Decidable (_ ∧ _))

theorem pathNames_ne_nil (t : Text) : pathNames t ≠ [] := by
  rw [pathNames]
  split
  · split <;> simp
  · simp

theorem pathNames_of_not_mem {name : Text} (h : '.' ∉ name) : pathNames name = [name] := by
  rw [pathNames]
  split
  · rename_i hcut
    rw [Text.cut_eq_none_iff.2 h] at hcut
    cases hcut
  · rfl

theorem pathNames_append {name : Text} (hne : name ≠ []) (h : '.' ∉ name) (rest : Text) :
    pathNames (name ++ '.' :: rest) = name :: pathNames rest := by
  rw [pathNames]
  split
  · rename_i first rest' hcut
    rw [Text.cut_append h] at hcut
    cases hcut
    rw [if_neg hne]
  · rename_i hcut
    rw [Text.cut_append h] at hcut
    cases hcut

theorem pathNames_join {names : List Text} (hne : names ≠ [])
    (h : ∀ name ∈ names, IsPlainName name) : pathNames (Text.join ['.'] names) = names := by
  induction names with
  | nil => exact absurd rfl hne
  | cons name names ih =>
    obtain ⟨hname, hothers⟩ := List.forall_mem_cons.1 h
    cases names with
    | nil => exact pathNames_of_not_mem hname.2
    | cons name' names =>
      rw [Text.join_cons (List.cons_ne_nil _ _), List.append_assoc, List.singleton_append,
        pathNames_append hname.1 hname.2, ih (List.cons_ne_nil _ _) hothers]

theorem pathNames_join_append {names : List Text} (hne : names ≠ [])
    (h : ∀ name ∈ names, IsPlainName name) (rest : Text) :
    pathNames (Text.join ['.'] names ++ '.' :: rest) = names ++ pathNames rest := by
  induction names with
  | nil => exact absurd rfl hne
  | cons name names ih =>
    obtain ⟨hname, hothers⟩ := List.forall_mem_cons.1 h
    cases names with
    | nil => exact pathNames_append hname.1 hname.2 rest
    | cons name' names =>
      rw [Text.join_cons (List.cons_ne_nil _ _), List.append_assoc, List.append_assoc,
        List.singleton_append, pathNames_append hname.1 hname.2, ih (List.cons_ne_nil _ _) hothers]
      rfl

end Interpolation

import Interpolation.Text.Blank
import Mathlib.Data.List.DropRight

/-!
# Interpolation.Proofs.Trimming

**Trimming** a text: what is left, and what does not matter for it.

A text that neither begins nor ends with a character of the class is trimmed (`Text.Trimmed`).
Trimming makes every text so (`trimmed_trimBy`) and leaves such a text as it is
(`Trimmed.trimBy_eq`). A text may lose the characters of the class at its end before it is trimmed
(`trimBy_dropTrailing`), and what is not of the class stops the trimming (`trimBy_cons_of_not`).
Trimming leaves nothing exactly of the texts that are all of the class (`trimBy_eq_nil_iff`).
-/

namespace Interpolation.Text

variable {p : Char → Bool} {t : Text}

/-- The text neither begins nor ends with a character of the class. -/
structure Trimmed (p : Char → Bool) (t : Text) : Prop where
  /-- The first character is not of the class. -/
  head_not : ∀ c ∈ t.head?, ¬ p c
  /-- The last character is not of the class. -/
  last_not : ∀ c ∈ t.getLast?, ¬ p c

theorem not_of_mem_head?_dropWhile {c : Char} (h : c ∈ (t.dropWhile p).head?) : ¬ p c := by
  have hnot := List.head?_dropWhile_not p t
  rw [Option.mem_def.1 h] at hnot
  simpa using hnot

theorem trimmed_trimBy (p : Char → Bool) (t : Text) : Trimmed p (t.trimBy p) := by
  constructor
  · intro c hc
    -- What is left at the front is not lost at the end.
    obtain ⟨back, hback⟩ : t.trimBy p <+: t.dropWhile p := List.rdropWhile_prefix p _
    refine not_of_mem_head?_dropWhile (t := t) ?_
    rw [← hback, List.head?_append, Option.mem_def.1 hc]
    rfl
  · intro c hc
    rw [trimBy, dropTrailing, List.getLast?_reverse] at hc
    exact not_of_mem_head?_dropWhile hc

/-- A trimmed text loses nothing. -/
theorem Trimmed.trimBy_eq (h : Trimmed p t) : t.trimBy p = t := by
  have hfront : t.dropWhile p = t := by
    cases t with
    | nil => rfl
    | cons c t => exact List.dropWhile_cons_of_neg (h.head_not c rfl)
  have hback : t.rdropWhile p = t :=
    List.rdropWhile_eq_self_iff.2 fun hne => h.last_not _ (List.getLast?_eq_getLast_of_ne_nil hne)
  rw [trimBy, hfront]
  exact hback

theorem mem_of_mem_trimBy {c : Char} (h : c ∈ t.trimBy p) : c ∈ t :=
  (List.dropWhile_suffix p).subset ((List.rdropWhile_prefix p _).subset h)

/-- Trimming leaves nothing exactly of the texts that are all of the class. -/
theorem trimBy_eq_nil_iff : t.trimBy p = [] ↔ ∀ c ∈ t, p c := by
  have hdrop : t.trimBy p = (t.dropWhile p).rdropWhile p := rfl
  rw [hdrop, List.rdropWhile_eq_nil_iff]
  constructor
  · intro h c hc
    rw [← List.takeWhile_append_dropWhile (p := p) (l := t), List.mem_append] at hc
    rcases hc with hc | hc
    · exact List.mem_takeWhile_imp hc
    · exact h c hc
  · exact fun h c hc => h c ((List.dropWhile_suffix p).subset hc)

/-! ### Blanks -/

theorem Trimmed.trim_eq (h : Trimmed isBlank t) : t.trim = t := h.trimBy_eq

theorem trim_eq_nil_iff : t.trim = [] ↔ ∀ c ∈ t, isBlank c := trimBy_eq_nil_iff

/-! ### Characters of the class at the end -/

theorem dropTrailing_append {back : Text} (h : ∀ c ∈ back, p c) (t : Text) :
    dropTrailing p (t ++ back) = dropTrailing p t := by
  rw [dropTrailing, dropTrailing, List.reverse_append,
    List.dropWhile_append_of_pos fun c hc => h c (List.mem_reverse.1 hc)]

theorem trimBy_append {back : Text} (h : ∀ c ∈ back, p c) (t : Text) :
    (t ++ back).trimBy p = t.trimBy p := by
  rw [trimBy, trimBy, List.dropWhile_append]
  split
  · -- Nothing of `t` is left, and nothing of `back`.
    rename_i hnil
    rw [List.isEmpty_iff.1 hnil, List.dropWhile_eq_nil_iff.2 h]
  · exact dropTrailing_append h _

theorem trimBy_dropTrailing (p : Char → Bool) (t : Text) :
    (dropTrailing p t).trimBy p = t.trimBy p := by
  have hsplit : dropTrailing p t ++ t.rtakeWhile p = t := List.rdropWhile_append_rtakeWhile
  have hback : ∀ c ∈ t.rtakeWhile p, p c := fun c hc => List.mem_rtakeWhile_imp hc
  rw [← trimBy_append hback, hsplit]

/-! ### A first character that is not of the class -/

theorem dropTrailing_cons_of_not {c : Char} (h : ¬ p c) (t : Text) :
    dropTrailing p (c :: t) = c :: dropTrailing p t := by
  have hc : [c].dropWhile p = [c] := List.dropWhile_cons_of_neg h
  rw [dropTrailing, List.reverse_cons, List.dropWhile_append]
  split
  · rename_i hnil
    rw [hc, dropTrailing, List.isEmpty_iff.1 hnil]
    rfl
  · rw [List.reverse_append, dropTrailing]
    rfl

theorem trimBy_cons_of_not {c : Char} (h : ¬ p c) (t : Text) :
    trimBy p (c :: t) = c :: dropTrailing p t := by
  rw [trimBy, List.dropWhile_cons_of_neg h, dropTrailing_cons_of_not h]

end Interpolation.Text

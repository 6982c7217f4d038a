/-!
# Interpolation.Text.Basic

**Text** is a list of Unicode scalar values. Every rule of this library that looks at characters
(scanning templates, trimming names, reading numerals) is a recursion on that list.

Design points:

* Positions in a text are *byte* offsets of its UTF-8 form, so the measure that spans are built from
  is `Text.byteLength` and not the number of characters.
* The order of texts is the order of their code points. UTF-8 keeps that order, so it
  is the byte order too.
* Cutting and splitting never lose a character: `cut` is inverted by writing the mark back
  (`eq_of_cut_eq_some`), and `splitOn` by `join` (`join_splitOn`).
-/

namespace Interpolation

/-- A text: its Unicode scalar values in order. -/
abbrev Text := List Char

namespace Text

/-! ### Length in bytes -/

/-- The number of bytes of the text in UTF-8. Spans of a template are measured with it. -/
def byteLength : Text → Nat
  | [] => 0
  | c :: t => c.utf8Size + byteLength t

@[simp] theorem byteLength_nil : byteLength [] = 0 := rfl

@[simp] theorem byteLength_cons (c : Char) (t : Text) :
    byteLength (c :: t) = c.utf8Size + byteLength t := rfl

@[simp] theorem byteLength_append (s t : Text) :
    byteLength (s ++ t) = byteLength s + byteLength t := by
  induction s with
  | nil => simp
  | cons c s ih => simp only [List.cons_append, byteLength_cons, ih]; omega

/-! ### Cutting and splitting -/

/-- What stands before and after the first `mark`; nothing if the text has no `mark`. -/
def cut (mark : Char) : Text → Option (Text × Text)
  | [] => none
  | c :: t => if c = mark then some ([], t) else (cut mark t).map fun p => (c :: p.1, p.2)

/-- A cut loses only the mark, and the mark does not occur before the cut. -/
theorem eq_of_cut_eq_some {mark : Char} {t before after : Text}
    (h : cut mark t = some (before, after)) : t = before ++ mark :: after ∧ mark ∉ before := by
  induction t generalizing before with
  | nil => simp [cut] at h
  | cons c t ih =>
    rw [cut] at h
    split at h
    · rename_i hc
      obtain ⟨rfl, rfl⟩ := Prod.mk.inj (Option.some.inj h)
      simp [hc]
    · rename_i hc
      obtain ⟨p, hp, he⟩ := Option.map_eq_some_iff.1 h
      obtain ⟨rfl, rfl⟩ := Prod.mk.inj he
      obtain ⟨ht, hm⟩ := ih hp
      refine ⟨by rw [ht]; rfl, ?_⟩
      simp only [List.mem_cons, not_or]
      exact ⟨fun e => hc e.symm, hm⟩

/-- Only a text without the mark cannot be cut. -/
theorem cut_eq_none_iff {mark : Char} {t : Text} : cut mark t = none ↔ mark ∉ t := by
  induction t with
  | nil => simp [cut]
  | cons c t ih =>
    by_cases hc : c = mark
    · simp [cut, hc]
    · simp [cut, hc, ih, Ne.symm hc]

/-- A text is cut at the first mark written into it. -/
theorem cut_append {mark : Char} {before : Text} (h : mark ∉ before) (after : Text) :
    cut mark (before ++ mark :: after) = some (before, after) := by
  induction before with
  | nil => simp [cut]
  | cons c before ih =>
    obtain ⟨hne, hmem⟩ := not_or.1 (mt List.mem_cons.2 h)
    rw [List.cons_append, cut, if_neg (Ne.symm hne), ih hmem]
    rfl

/-- The parts of a text between its marks, the first and the last part included; never
an empty list. -/
def splitOn (mark : Char) : Text → List Text
  | [] => [[]]
  | c :: t =>
    if c = mark then [] :: splitOn mark t
    else match splitOn mark t with
      | [] => [[c]]
      | part :: parts => (c :: part) :: parts

@[simp] theorem splitOn_nil (mark : Char) : splitOn mark [] = [[]] := rfl

theorem splitOn_ne_nil (mark : Char) (t : Text) : splitOn mark t ≠ [] := by
  cases t with
  | nil => simp
  | cons c t =>
    rw [splitOn]
    split
    · simp
    · split <;> simp

/-- The texts one after the other, `separator` between any two neighbours. -/
def join (separator : Text) : List Text → Text
  | [] => []
  | [t] => t
  | t :: ts => t ++ separator ++ join separator ts

@[simp] theorem join_singleton (separator t : Text) : join separator [t] = t := rfl

theorem join_cons {separator t : Text} {ts : List Text} (h : ts ≠ []) :
    join separator (t :: ts) = t ++ separator ++ join separator ts := by
  cases ts with
  | nil => exact absurd rfl h
  | cons _ _ => rfl

/-- Joining with the mark undoes splitting at it. -/
theorem join_splitOn (mark : Char) (t : Text) : join [mark] (splitOn mark t) = t := by
  induction t with
  | nil => rfl
  | cons c t ih =>
    rw [splitOn]
    split
    · rename_i hc
      rw [join_cons (splitOn_ne_nil mark t), ih, hc]
      rfl
    · generalize hs : splitOn mark t = parts at ih
      cases parts with
      | nil => exact absurd hs (splitOn_ne_nil mark t)
      | cons part parts =>
        cases parts with
        | nil => simpa [join] using ih
        | cons _ _ => simpa [join] using ih

/-! ### Trimming -/

/-- The text without the characters of the class `p` at its end. -/
def dropTrailing (p : Char → Bool) (t : Text) : Text :=
  (t.reverse.dropWhile p).reverse

/-- The text without the characters of the class `p` at either end. -/
def trimBy (p : Char → Bool) (t : Text) : Text :=
  dropTrailing p (t.dropWhile p)

/-! ### ASCII letter case -/

/-- Are the texts equal when the ASCII letters are read without regard to case? All other characters
have to agree exactly. -/
def sameLetters (s t : Text) : Bool :=
  s.map Char.toLower == t.map Char.toLower

end Text

end Interpolation

import Interpolation.Number.Numeral
import Mathlib.Algebra.Group.Int.Defs

/-!
# Interpolation.Proofs.Numerals

**Which integer a text writes**, without regard to any range (`Denotes`), and what reading into a
range adds to it: the integer has to lie in the range, and nothing else is refused
(`IntRange.read_eq_ok_iff`). Reading looks at one digit after the other and gives up on the first
that takes the value beyond the range; since the value never falls again, that is the same as
comparing it at the end (`readDigits_eq_ok_iff`). The ranges of so many bits are written with powers
of two (`IntRange.holds_signed_iff`, `IntRange.holds_unsigned_iff`).
-/

namespace Interpolation

/-- ASCII digits, at least one. -/
structure IsDigits (t : Text) : Prop where
  nonempty : t ≠ []
  digits : ∀ c ∈ t, c.isDigit

instance (t : Text) : Decidable (IsDigits t) :=
  decidable_of_iff (t ≠ [] ∧ t.all Char.isDigit)
    ⟨fun h => ⟨h.1, List.all_eq_true.1 h.2⟩, fun h => ⟨h.nonempty, List.all_eq_true.2 h.digits⟩⟩

/-- The text writes the integer in decimal: one sign at most, and digits after it, as
many as there may be. -/
inductive Denotes : Text → Int → Prop
  /-- Digits without a sign. -/
  | unsigned {t : Text} (h : IsDigits t) : Denotes t (digitsValue t)
  /-- Digits after a plus sign. -/
  | plus {t : Text} (h : IsDigits t) : Denotes ('+' :: t) (digitsValue t)
  /-- Digits after a minus sign. -/
  | minus {t : Text} (h : IsDigits t) : Denotes ('-' :: t) (-(digitsValue t : Int))

theorem IsDigits.isDigit_head {c : Char} {t : Text} (h : IsDigits (c :: t)) : c.isDigit :=
  h.digits c List.mem_cons_self

/-! ### The integer of a text -/

theorem denotes_plus_iff {t : Text} {n : Int} :
    Denotes ('+' :: t) n ↔ IsDigits t ∧ n = digitsValue t := by
  constructor
  · intro h
    cases h with
    | unsigned h => exact absurd h.isDigit_head (by decide)
    | plus h => exact ⟨h, rfl⟩
  · rintro ⟨h, rfl⟩
    exact .plus h

theorem denotes_minus_iff {t : Text} {n : Int} :
    Denotes ('-' :: t) n ↔ IsDigits t ∧ n = -(digitsValue t : Int) := by
  constructor
  · intro h
    cases h with
    | unsigned h => exact absurd h.isDigit_head (by decide)
    | minus h => exact ⟨h, rfl⟩
  · rintro ⟨h, rfl⟩
    exact .minus h

theorem denotes_iff_of_head {t : Text} (hplus : t.head? ≠ some '+')
    (hminus : t.head? ≠ some '-') {n : Int} : Denotes t n ↔ IsDigits t ∧ n = digitsValue t := by
  constructor
  · intro h
    cases h with
    | unsigned h => exact ⟨h, rfl⟩
    | plus h => exact absurd rfl hplus
    | minus h => exact absurd rfl hminus
  · rintro ⟨h, rfl⟩
    exact .unsigned h

/-- A text writes one integer at most. -/
theorem Denotes.unique {t : Text} {m n : Int} (hm : Denotes t m) (hn : Denotes t n) : m = n := by
  cases hn with
  | unsigned h =>
    have hsign {c : Char} (hc : c.isDigit = false) : t.head? ≠ some c := by
      intro hhead
      obtain ⟨rest, rfl⟩ := List.head?_eq_some_iff.1 hhead
      exact Bool.eq_false_iff.1 hc h.isDigit_head
    exact ((denotes_iff_of_head (hsign rfl) (hsign rfl)).1 hm).2
  | plus h => exact (denotes_plus_iff.1 hm).2
  | minus h => exact (denotes_minus_iff.1 hm).2

/-! ### Reading digits -/

theorem digitValue?_eq_some_iff {c : Char} {d : Nat} :
    digitValue? c = some d ↔ c.isDigit ∧ d = c.toNat - 48 := by
  have hdigit : ('0' ≤ c ∧ c ≤ '9') ↔ c.isDigit := by simp [Char.isDigit, Char.le_def]
  rw [digitValue?, Option.ite_none_right_eq_some, hdigit, Option.some.injEq, eq_comm (b := d)]

/-- The value of further digits after the value `n` of those before. -/
def valueAfter (n : Nat) (t : Text) : Nat := t.foldl (fun n c => 10 * n + (c.toNat - 48)) n

theorem valueAfter_cons (n : Nat) (c : Char) (t : Text) :
    valueAfter n (c :: t) = valueAfter (10 * n + (c.toNat - 48)) t := List.foldl_cons ..

theorem le_valueAfter (n : Nat) (t : Text) : n ≤ valueAfter n t := by
  induction t generalizing n with
  | nil => exact Nat.le_refl n
  | cons c t ih =>
    rw [valueAfter_cons]
    have hstep := ih (10 * n + (c.toNat - 48))
    omega

theorem readDigits_eq_ok_iff {most n m : Nat} {beyond : NumeralError} {t : Text} (hn : n ≤ most) :
    readDigits most beyond n t = .ok m ↔ (∀ c ∈ t, c.isDigit) ∧ m = valueAfter n t ∧ m ≤ most := by
  induction t generalizing n with
  | nil =>
    rw [readDigits, Except.ok.injEq]
    constructor
    · rintro rfl
      exact ⟨by simp, rfl, hn⟩
    · rintro ⟨-, rfl, -⟩
      rfl
  | cons c t ih =>
    rw [readDigits, List.forall_mem_cons, valueAfter_cons]
    cases hc : digitValue? c with
    | none =>
      have hdigit : ¬ c.isDigit := fun h => by simp [digitValue?_eq_some_iff.2 ⟨h, rfl⟩] at hc
      simp [hdigit]
    | some d =>
      obtain ⟨hdigit, rfl⟩ := digitValue?_eq_some_iff.1 hc
      have hle := le_valueAfter (10 * n + (c.toNat - 48)) t
      by_cases hmost : 10 * n + (c.toNat - 48) ≤ most
      · simp [hmost, ih hmost, hdigit]
      · simp only [hmost, if_false, reduceCtorEq, false_iff]
        omega

theorem readSome_eq_ok_iff {most m : Nat} {beyond : NumeralError} {t : Text} :
    IntRange.readSome most beyond t = .ok m ↔ IsDigits t ∧ m = digitsValue t ∧ m ≤ most := by
  cases t with
  | nil =>
    constructor
    · intro h
      cases h
    · rintro ⟨h, -⟩
      exact absurd rfl h.nonempty
  | cons c t =>
    rw [IntRange.readSome, readDigits_eq_ok_iff (Nat.zero_le most)]
    · exact and_congr_left fun _ => ⟨fun h => ⟨List.cons_ne_nil c t, h⟩, IsDigits.digits⟩
    · simp

/-! ### Ranges -/

namespace IntRange

theorem holds_iff {r : IntRange} {n : Int} : r.holds n ↔ -(r.below : Int) ≤ n ∧ n ≤ r.above := by
  rw [holds, Bool.and_eq_true, decide_eq_true_iff, decide_eq_true_iff]

theorem cast_pow_sub_one (k : Nat) : ((Nat.pow 2 k - 1 : Nat) : Int) = 2 ^ k - 1 := by
  have hpos : 1 ≤ Nat.pow 2 k := Nat.pow_pos (by decide)
  rw [Int.natCast_sub hpos]
  exact congrArg (· - 1) (Int.natCast_pow 2 k)

theorem holds_signed_iff {bits : Nat} {n : Int} :
    (signed bits).holds n ↔ -2 ^ (bits - 1) ≤ n ∧ n < 2 ^ (bits - 1) := by
  have hbelow : ((signed bits).below : Int) = 2 ^ (bits - 1) := Int.natCast_pow 2 _
  have habove : ((signed bits).above : Int) = 2 ^ (bits - 1) - 1 := cast_pow_sub_one _
  rw [holds_iff, hbelow, habove, Int.le_sub_one_iff]

theorem holds_unsigned_iff {bits : Nat} {n : Int} :
    (unsigned bits).holds n ↔ 0 ≤ n ∧ n < 2 ^ bits := by
  have habove : ((unsigned bits).above : Int) = 2 ^ bits - 1 := cast_pow_sub_one _
  have hbelow : -((unsigned bits).below : Int) = 0 := rfl
  rw [holds_iff, hbelow, habove, Int.le_sub_one_iff]

/-- An integer of 64 bits is kept as it is. -/
theorem toInt_ofInt_of_holds {n : Int} (h : (signed 64).holds n) : (Int64.ofInt n).toInt = n := by
  obtain ⟨hle, hlt⟩ := holds_signed_iff.1 h
  exact Int64.toInt_ofInt_of_le hle hlt

end IntRange

/-! ### Reading numerals -/

theorem map_eq_ok_iff {ε α β : Type} {f : α → β} {x : Except ε α} {b : β} :
    x.map f = .ok b ↔ ∃ a, x = .ok a ∧ f a = b := by
  cases x <;> simp [Except.map]

/-- Turning the number read into an integer first makes no difference. -/
theorem map_neg_coe {ε : Type} (x : Except ε Nat) :
    (do let n ← x; pure (n : Int) : Except ε Int).map (fun n => -n) =
      x.map fun n : Nat => -(n : Int) := by
  cases x <;> rfl

namespace IntRange

theorem map_readSome_eq_ok_iff {f : Nat → Int} {most : Nat} {beyond : NumeralError}
    {t : Text} {n : Int} :
    (readSome most beyond t).map f = .ok n ↔
      IsDigits t ∧ n = f (digitsValue t) ∧ digitsValue t ≤ most := by
  rw [map_eq_ok_iff]
  constructor
  · rintro ⟨m, hm, rfl⟩
    obtain ⟨hdigits, rfl, hmost⟩ := readSome_eq_ok_iff.1 hm
    exact ⟨hdigits, rfl, hmost⟩
  · rintro ⟨hdigits, rfl, hmost⟩
    exact ⟨_, readSome_eq_ok_iff.2 ⟨hdigits, rfl, hmost⟩, rfl⟩

theorem read_plus_eq_ok_iff {r : IntRange} {t : Text} {n : Int} :
    r.read ('+' :: t) = .ok n ↔ IsDigits t ∧ n = digitsValue t ∧ digitsValue t ≤ r.above := by
  rw [read, if_pos rfl, map_readSome_eq_ok_iff]
  rfl

theorem read_minus_eq_ok_iff {r : IntRange} {t : Text} {n : Int} :
    r.read ('-' :: t) = .ok n ↔
      0 < r.below ∧ IsDigits t ∧ n = -(digitsValue t : Int) ∧ digitsValue t ≤ r.below := by
  rw [read, if_neg (by decide)]
  by_cases hbelow : 0 < r.below
  · rw [if_pos ⟨rfl, hbelow⟩, map_neg_coe, map_readSome_eq_ok_iff]
    exact (and_iff_right hbelow).symm
  · rw [if_neg fun h => hbelow h.2, map_readSome_eq_ok_iff]
    constructor
    · rintro ⟨hdigits, -⟩
      exact absurd hdigits.isDigit_head (by decide)
    · rintro ⟨hpos, -⟩
      exact absurd hpos hbelow

theorem read_eq_ok_iff_of_head {r : IntRange} {t : Text} (hplus : t.head? ≠ some '+')
    (hminus : t.head? ≠ some '-') {n : Int} :
    r.read t = .ok n ↔ IsDigits t ∧ n = digitsValue t ∧ digitsValue t ≤ r.above := by
  cases t with
  | nil =>
    constructor
    · intro h
      cases h
    · rintro ⟨h, -⟩
      exact absurd rfl h.nonempty
  | cons c t =>
    rw [read, if_neg fun h => hplus (congrArg some h), if_neg fun h => hminus (congrArg some h.1),
      map_readSome_eq_ok_iff]
    rfl

/-- **A range is read from the texts that write an integer of it**, however many digits they have;
but a minus sign is read only into a range that reaches below zero. -/
theorem read_eq_ok_iff {r : IntRange} {t : Text} {n : Int} :
    r.read t = .ok n ↔ Denotes t n ∧ r.holds n ∧ (t.head? = some '-' → 0 < r.below) := by
  rw [holds_iff]
  by_cases hplus : t.head? = some '+'
  · obtain ⟨t, rfl⟩ := List.head?_eq_some_iff.1 hplus
    rw [read_plus_eq_ok_iff, denotes_plus_iff, and_assoc]
    refine and_congr_right fun _ => and_congr_right ?_
    rintro rfl
    simp
  · by_cases hminus : t.head? = some '-'
    · obtain ⟨t, rfl⟩ := List.head?_eq_some_iff.1 hminus
      rw [read_minus_eq_ok_iff, denotes_minus_iff]
      constructor
      · rintro ⟨hbelow, hdigits, rfl, hle⟩
        exact ⟨⟨hdigits, rfl⟩, by omega, fun _ => hbelow⟩
      · rintro ⟨⟨hdigits, rfl⟩, hle, hbelow⟩
        exact ⟨hbelow rfl, hdigits, rfl, by omega⟩
    · rw [read_eq_ok_iff_of_head hplus hminus, denotes_iff_of_head hplus hminus, and_assoc]
      refine and_congr_right fun _ => and_congr_right ?_
      rintro rfl
      simp [hminus]

theorem read?_eq_some_iff {r : IntRange} {t : Text} {n : Int} :
    r.read? t = some n ↔ Denotes t n ∧ r.holds n ∧ (t.head? = some '-' → 0 < r.below) := by
  rw [← read_eq_ok_iff, read?]
  cases r.read t <;> simp [Except.toOption]

/-- A signed range reads what the text writes, if it holds it. -/
theorem read?_signed_iff {bits : Nat} {t : Text} {n : Int} :
    (signed bits).read? t = some n ↔ Denotes t n ∧ -2 ^ (bits - 1) ≤ n ∧ n < 2 ^ (bits - 1) := by
  have hbelow : 0 < (signed bits).below := Nat.pow_pos (by decide)
  rw [read?_eq_some_iff, holds_signed_iff]
  exact and_congr_right fun _ => and_iff_left fun _ => hbelow

end IntRange

end Interpolation

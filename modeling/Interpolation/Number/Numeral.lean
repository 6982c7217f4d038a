import Interpolation.Text.Basic

/-!
# Interpolation.Number.Numeral

**Decimal numerals** of whole numbers: the shortest numeral of a number, and reading a
numeral into a range.

Design points:

* A numeral may carry leading zeros and one sign; `-` is a sign only for ranges that
  hold negative numbers.
* Reading goes from left to right and stops at the first character that decides the matter, so a
  numeral that is already too large is reported as such even if a letter follows later.
* The digits of a numeral say which number it is (`digitsValue_numeral`), so no two
  numbers share one.
-/

namespace Interpolation

/-! ### Writing -/

/-- The character of a digit below ten. -/
def digitChar (d : Nat) : Char := Char.ofNat (48 + d)

/-- The decimal numeral of a number, without leading zeros. -/
def numeral (n : Nat) : Text :=
  if n < 10 then [digitChar n] else numeral (n / 10) ++ [digitChar (n % 10)]
termination_by n
decreasing_by omega

/-- The decimal numeral of an integer; only negative ones carry a sign. -/
def signedNumeral : Int → Text
  | .ofNat n => numeral n
  | .negSucc n => '-' :: numeral (n + 1)

/-- The numeral in at least `width` places, zeros in front. -/
def paddedNumeral (width n : Nat) : Text :=
  let t := numeral n
  List.replicate (width - t.length) '0' ++ t

/-! ### Reading -/

/-- The value of an ASCII digit. -/
def digitValue? (c : Char) : Option Nat :=
  if '0' ≤ c ∧ c ≤ '9' then some (c.toNat - 48) else none

/-- The value of a run of digits, most significant first. -/
def digitsValue (t : Text) : Nat := t.foldl (fun n c => 10 * n + (c.toNat - 48)) 0

theorem toNat_digitChar {d : Nat} (h : d < 10) : (digitChar d).toNat = 48 + d := by
  have hall : ∀ d < 10, (digitChar d).toNat = 48 + d := by decide
  exact hall d h

theorem isDigit_digitChar {d : Nat} (h : d < 10) : (digitChar d).isDigit = true := by
  have hall : ∀ d < 10, (digitChar d).isDigit = true := by decide
  exact hall d h

theorem isDigit_of_mem_numeral {n : Nat} {c : Char} (h : c ∈ numeral n) : c.isDigit = true := by
  induction n using numeral.induct with
  | case1 n hn =>
    rw [numeral, if_pos hn, List.mem_singleton] at h
    rw [h]
    exact isDigit_digitChar hn
  | case2 n hn ih =>
    rw [numeral, if_neg hn, List.mem_append, List.mem_singleton] at h
    rcases h with h | rfl
    · exact ih h
    · exact isDigit_digitChar (Nat.mod_lt _ (by decide))

theorem numeral_ne_nil (n : Nat) : numeral n ≠ [] := by
  unfold numeral
  split
  · exact List.cons_ne_nil _ _
  · exact List.append_ne_nil_of_right_ne_nil _ (List.cons_ne_nil _ _)

/-- The value of a numeral is the number that it was written for. -/
theorem digitsValue_numeral (n : Nat) : digitsValue (numeral n) = n := by
  induction n using numeral.induct with
  | case1 n hn =>
    rw [numeral, if_pos hn]
    show 10 * 0 + ((digitChar n).toNat - 48) = n
    rw [toNat_digitChar hn]
    omega
  | case2 n hn ih =>
    rw [numeral, if_neg hn, digitsValue, List.foldl_append, ← digitsValue, ih]
    show 10 * (n / 10) + ((digitChar (n % 10)).toNat - 48) = n
    rw [toNat_digitChar (Nat.mod_lt _ (by decide))]
    omega

theorem numeral_injective {m n : Nat} (h : numeral m = numeral n) : m = n := by
  rw [← digitsValue_numeral m, ← digitsValue_numeral n, h]

/-- Why a text is no numeral of a range. -/
inductive NumeralError
  /-- There is no text. -/
  | empty
  /-- A character is no digit, or there is no digit after the sign. -/
  | invalidDigit
  /-- The number lies above the range. -/
  | tooLarge
  /-- The number lies below the range. -/
  | tooSmall
  deriving DecidableEq, Repr

/-- The wording of a failure to read a numeral. -/
def NumeralError.message : NumeralError → Text
  | .empty => "cannot parse integer from empty string".toList
  | .invalidDigit => "invalid digit found in string".toList
  | .tooLarge => "number too large to fit in target type".toList
  | .tooSmall => "number too small to fit in target type".toList

/-- Read digits after the value `n` of those already seen; stop with `beyond` as soon as the
value exceeds `most`. -/
def readDigits (most : Nat) (beyond : NumeralError) (n : Nat) : Text → Except NumeralError Nat
  | [] => .ok n
  | c :: t =>
    match digitValue? c with
    | none => .error .invalidDigit
    | some d => if 10 * n + d ≤ most then readDigits most beyond (10 * n + d) t else .error beyond

/-- A range of integers around zero. -/
structure IntRange where
  /-- How far the range reaches below zero. -/
  below : Nat
  /-- How far the range reaches above zero. -/
  above : Nat
  deriving DecidableEq, Repr

namespace IntRange

/-- The integers that `bits` bits hold in two's complement. -/
def signed (bits : Nat) : IntRange := ⟨Nat.pow 2 (bits - 1), Nat.pow 2 (bits - 1) - 1⟩

/-- The natural numbers that `bits` bits hold. -/
def unsigned (bits : Nat) : IntRange := ⟨0, Nat.pow 2 bits - 1⟩

/-- Is the integer in the range? -/
def holds (r : IntRange) (n : Int) : Bool := -(r.below : Int) ≤ n && n ≤ (r.above : Int)

/-- Digits that have to be there. -/
def readSome (most : Nat) (beyond : NumeralError) : Text → Except NumeralError Nat
  | [] => .error .invalidDigit
  | t => readDigits most beyond 0 t

/-- Read a numeral of the range: an optional sign, then digits and nothing else. -/
def read (r : IntRange) : Text → Except NumeralError Int
  | [] => .error .empty
  | c :: t =>
    if c = '+' then (readSome r.above .tooLarge t).map Int.ofNat
    else if c = '-' ∧ 0 < r.below then (readSome r.below .tooSmall t).map fun n => -(n : Int)
    else (readSome r.above .tooLarge (c :: t)).map Int.ofNat

/-- The number of the range that the text writes, if it writes one. -/
def read? (r : IntRange) (t : Text) : Option Int := (r.read t).toOption

end IntRange

end Interpolation

import Interpolation.Number.Numeral

/-!
# Interpolation.Number.Binary

**Binary floating-point numbers** as exact values. A finite number is `± m · 2 ^ e`; what a format
adds is which pairs `(m, e)` it can hold, how a real number is rounded to such a pair, and how the
pair is written as bits.

Design points:

* Widening needs no rounding: a number of a narrower format *is* the same value.
* All arithmetic is on natural numbers, so rounding is exact and visible to proofs.
* A NaN carries no payload: no rule of this library looks at one.
-/

namespace Interpolation

/-- A floating-point number. -/
inductive Binary
  /-- Not a number. -/
  | nan
  /-- An infinity with its sign. -/
  | infinity (negative : Bool)
  /-- `significand · 2 ^ exponent`, negated if `negative`; zeros carry a sign too. -/
  | finite (negative : Bool) (significand : Nat) (exponent : Int)
  deriving DecidableEq, Repr

/-- `num / den · 2 ^ shift` for a possibly negative `shift`, as a numerator and a denominator. -/
def scaleByTwo (num den : Nat) (shift : Int) : Nat × Nat :=
  (num * Nat.pow 2 shift.toNat, den * Nat.pow 2 (-shift).toNat)

/-- The whole number nearest to `num / den`; of two equally near ones the even one. -/
def roundToEven (num den : Nat) : Nat :=
  let q := num / den
  let r := num % den
  if 2 * r < den then q
  else if den < 2 * r then q + 1
  else if q % 2 = 0 then q else q + 1

/-- The greatest `k` with `2 ^ k ≤ num / den`, for a positive quotient. -/
def floorLogTwo (num den : Nat) : Int :=
  let k : Int := (Nat.log2 num : Int) - (Nat.log2 den : Int)
  let scaled := scaleByTwo num den (-k)
  if scaled.2 ≤ scaled.1 then k else k - 1

/-- A format of binary numbers. -/
structure BinaryFormat where
  /-- The number of bits of a full significand. -/
  precision : Nat
  /-- The number of bits of the written exponent. -/
  exponentBits : Nat
  /-- The least exponent of a significand. -/
  minExponent : Int
  /-- The greatest exponent of a significand. -/
  maxExponent : Int
  deriving DecidableEq, Repr

namespace BinaryFormat

/-- The format of 64 bits. -/
def double : BinaryFormat := ⟨53, 11, -1074, 971⟩

/-- The format of 32 bits. -/
def single : BinaryFormat := ⟨24, 8, -149, 104⟩

/-- The number of the format nearest to `num / den`, a tie going to the even significand; beyond the
greatest number there is infinity. -/
def round (f : BinaryFormat) (negative : Bool) (num den : Nat) : Binary :=
  if num = 0 then .finite negative 0 f.minExponent
  else
    let e := max f.minExponent (floorLogTwo num den - (f.precision - 1 : Nat))
    let scaled := scaleByTwo num den (-e)
    let m := roundToEven scaled.1 scaled.2
    let full := m = Nat.pow 2 f.precision
    let m' := if full then Nat.pow 2 (f.precision - 1) else m
    let e' := if full then e + 1 else e
    if f.maxExponent < e' then .infinity negative else .finite negative m' e'

/-- The same number with the significand and the exponent that the format gives it. -/
def normalize (f : BinaryFormat) : Binary → Binary
  | .finite negative m e =>
    let scaled := scaleByTwo m 1 e
    f.round negative scaled.1 scaled.2
  | x => x

/-! ### Bits -/

/-- The number of values that the stored part of a significand takes. -/
def stored (f : BinaryFormat) : Nat := Nat.pow 2 (f.precision - 1)

/-- The number of values that the written exponent takes. -/
def exponents (f : BinaryFormat) : Nat := Nat.pow 2 f.exponentBits

/-- The number that the bits write. -/
def ofBits (f : BinaryFormat) (bits : Nat) : Binary :=
  let fraction := bits % f.stored
  let biased := bits / f.stored % f.exponents
  let negative := bits / f.stored / f.exponents % 2 == 1
  if biased = f.exponents - 1 then
    if fraction = 0 then .infinity negative else .nan
  else if biased = 0 then .finite negative fraction f.minExponent
  else .finite negative (f.stored + fraction) (f.minExponent + (biased - 1 : Nat))

/-- The bit of the sign. -/
def signBit (f : BinaryFormat) (negative : Bool) : Nat :=
  if negative then f.stored * f.exponents else 0

/-- The bits of a number that the format holds; nothing for a NaN, which has many. -/
def toBits? (f : BinaryFormat) : Binary → Option Nat
  | .nan => none
  | .infinity negative => some (f.signBit negative + (f.exponents - 1) * f.stored)
  | .finite negative m e => some (f.signBit negative + (e - f.minExponent).toNat * f.stored + m)

end BinaryFormat

end Interpolation

import Interpolation.Number.Decimal

/-!
# Interpolation.Number.Shortest

The **shortest decimal text** of a binary number: the fewest digits that read back as the same
number, and of those the nearest to it.

A number is read back exactly from the points of an interval around it, whose ends lie half way to
its neighbours; the ends belong to it if its significand is even. If a point of a decimal grid lies
in the interval, so does one of the two grid points next to the number, so only these two are
tested, on the grids of one digit, two digits and so on.
-/

namespace Interpolation

/-- A positive number `coefficient · 10 ^ exponent` as a printer chooses it. -/
structure DecimalDigits where
  /-- The digits as a whole number. -/
  coefficient : Nat
  /-- The power of ten of the last digit. -/
  exponent : Int
  deriving DecidableEq, Repr

namespace Shortest

/-- `num / den · 10 ^ shift` for a possibly negative `shift`, as a numerator and a denominator. -/
def scaleByTen (num den : Nat) (shift : Int) : Nat × Nat :=
  (num * Nat.pow 10 shift.toNat, den * Nat.pow 10 (-shift).toNat)

/-- The greatest `k` with `10 ^ k ≤ num / den`, for a positive quotient. Below one, the least power
of ten that is no smaller than `den / num` has as many zeros as one less than that quotient,
rounded up, has digits. -/
def floorLogTen (num den : Nat) : Int :=
  if den ≤ num then ((numeral (num / den)).length : Int) - 1
  else -((numeral ((den + num - 1) / num - 1)).length : Int)

/-- The interval of reals that round to a number: numerators over the common denominator `den`. -/
structure Interval where
  /-- The numerator of the lower end. -/
  low : Nat
  /-- The numerator of the number itself. -/
  mid : Nat
  /-- The numerator of the upper end. -/
  high : Nat
  /-- The common denominator. -/
  den : Nat
  /-- Do the ends belong to the interval? -/
  closed : Bool

/-- The interval of `m · 2 ^ e`. Below a power of two the neighbour is only half as far. -/
def Interval.around (f : BinaryFormat) (m : Nat) (e : Int) : Interval :=
  let lower := if m = f.stored then 4 * m - 1 else 4 * m - 2
  let unit := scaleByTwo 1 1 (e - 2)
  ⟨lower * unit.1, 4 * m * unit.1, (4 * m + 2) * unit.1, unit.2, m % 2 = 0⟩

/-- Is `n · 10 ^ u` in the interval? -/
def Interval.contains (i : Interval) (n : Nat) (u : Int) : Bool :=
  let point := scaleByTen n 1 u
  let x := point.1 * i.den
  if i.closed then i.low * point.2 ≤ x && x ≤ i.high * point.2
  else i.low * point.2 < x && x < i.high * point.2

/-- The grid point next to the number that reads back as it, on the grid of multiples of `10 ^ u`;
of two the nearer, and of two equally near ones the upper. -/
def Interval.gridPoint? (i : Interval) (u : Int) : Option Nat :=
  let scaled := scaleByTen i.mid i.den (-u)
  let lower := scaled.1 / scaled.2
  let upper := lower + 1
  let lowerIn := 0 < lower && i.contains lower u
  let upperIn := i.contains upper u
  if lowerIn && upperIn then
    some (if 2 * (scaled.1 % scaled.2) < scaled.2 then lower else upper)
  else if lowerIn then some lower
  else if upperIn then some upper
  else none

/-- The first grid with a point that reads back, from the unit `10 ^ u` to finer ones, at
most `steps` of them. -/
def Interval.search (i : Interval) (u : Int) : (steps : Nat) → DecimalDigits
  | 0 => ⟨0, 0⟩
  | steps + 1 =>
    match i.gridPoint? u with
    | some n => if n % 10 = 0 then ⟨n / 10, u + 1⟩ else ⟨n, u⟩
    | none => i.search (u - 1) steps

/-- The shortest digits of `m · 2 ^ e`, for a positive `m`. Seventeen digits tell any two numbers of
53 bits apart; one grid more is never reached. -/
def digits (f : BinaryFormat) (m : Nat) (e : Int) : DecimalDigits :=
  let i := Interval.around f m e
  i.search (floorLogTen i.mid i.den) 18

end Shortest

/-! ### Text -/

/-- Positional notation: no exponent, however many zeros that takes, and no point after
a whole number. -/
def DecimalDigits.positional (d : DecimalDigits) : Text :=
  let t := numeral d.coefficient
  if 0 ≤ d.exponent then t ++ List.replicate d.exponent.toNat '0'
  else
    let places := (-d.exponent).toNat
    if places < t.length then t.take (t.length - places) ++ '.' :: t.drop (t.length - places)
    else '0' :: '.' :: List.replicate (places - t.length) '0' ++ t

/-- The text of a number of the 64-bit format. -/
def Binary.toText (x : Binary) : Text :=
  match BinaryFormat.double.normalize x with
  | .nan => "NaN".toList
  | .infinity negative => (if negative then ['-'] else []) ++ "inf".toList
  | .finite negative m e =>
    (if negative then ['-'] else []) ++
      (if m = 0 then ['0'] else (Shortest.digits .double m e).positional)

end Interpolation

import Interpolation.Number.Binary

/-!
# Interpolation.Number.Decimal

Reading **decimal notation** into a binary format. The text is first read as
`digits · 10 ^ exponent`, which is exact, and rounded once, so a number is read into a narrow format
directly and not through a wider one.
-/

namespace Interpolation

/-- A number in decimal notation: `coefficient · 10 ^ exponent`, negated if `negative`. -/
structure Decimal where
  /-- Does the number carry a minus sign? -/
  negative : Bool
  /-- The digits as a whole number. -/
  coefficient : Nat
  /-- The power of ten. -/
  exponent : Int
  deriving DecidableEq, Repr

namespace Decimal

/-- The number whose digits stand before and after a decimal point and whose exponent
part is `exponent`. -/
def ofParts (negative : Bool) (whole fraction : Text) (exponent : Int) : Decimal :=
  ⟨negative, digitsValue (whole ++ fraction), exponent - fraction.length⟩

/-- Beyond ten to this power both ways there is no finite nonzero number of either format. -/
def horizon : Int := 400

/-- The number of the format nearest to the decimal number. The horizon only spares the arithmetic
of powers that cannot matter. -/
def toBinary (f : BinaryFormat) (d : Decimal) : Binary :=
  if d.coefficient = 0 then .finite d.negative 0 f.minExponent
  else
    let magnitude := (numeral d.coefficient).length + d.exponent
    if horizon < magnitude then .infinity d.negative
    else if magnitude < -horizon then .finite d.negative 0 f.minExponent
    else f.round d.negative (d.coefficient * Nat.pow 10 d.exponent.toNat)
      (Nat.pow 10 (-d.exponent).toNat)

end Decimal

/-! ### Notation -/

/-- Is the character an ASCII digit? -/
def isDigit (c : Char) : Bool := '0' ≤ c && c ≤ '9'

/-- The sign in front of a number and what follows it. -/
def splitSign : Text → Bool × Text
  | '-' :: t => (true, t)
  | '+' :: t => (false, t)
  | t => (false, t)

/-- The value of an exponent part `e`, sign, digits; an absent part is zero. -/
def readExponent? : Text → Option Int
  | [] => some 0
  | mark :: t =>
    if mark = 'e' ∨ mark = 'E' then
      let signed := splitSign t
      if signed.2.isEmpty || !signed.2.all isDigit then none
      else
        let n : Int := digitsValue signed.2
        some (if signed.1 then -n else n)
    else none

/-- Read an unsigned number: digits with an optional point, at least one digit, an
optional exponent. -/
def readUnsigned? (negative : Bool) (t : Text) : Option Decimal :=
  let whole := t.takeWhile isDigit
  let rest := t.dropWhile isDigit
  let pointed := rest.head? = some '.'
  let fraction := if pointed then rest.tail.takeWhile isDigit else []
  let tail := if pointed then rest.tail.dropWhile isDigit else rest
  if whole.isEmpty && fraction.isEmpty then none
  else (readExponent? tail).map (Decimal.ofParts negative whole fraction)

/-- Read a floating-point number: an optional sign, then a decimal number or, in any letter case,
`inf`, `infinity` or `nan`. -/
def BinaryFormat.read? (f : BinaryFormat) (t : Text) : Option Binary :=
  let signed := splitSign t
  if signed.2.sameLetters "inf".toList || signed.2.sameLetters "infinity".toList then
    some (.infinity signed.1)
  else if signed.2.sameLetters "nan".toList then some .nan
  else (readUnsigned? signed.1 signed.2).map (Decimal.toBinary f)

end Interpolation

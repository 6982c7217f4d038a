import Interpolation.Number.Numeral

/-!
# Interpolation.DateTime

A **date and time of day** without a zone, and its canonical text `yyyy-mm-dd hh:mm:ss.mmm`.

A leap second is kept as second 59 with a nanosecond count of a whole second or more; it
is written as second 60.
-/

namespace Interpolation

/-- A date and time of day. -/
structure DateTime where
  /-- The year; there is a year zero, and years before it are negative. -/
  year : Int
  /-- The month, from 1. -/
  month : Nat
  /-- The day of the month, from 1. -/
  day : Nat
  /-- The hour. -/
  hour : Nat
  /-- The minute. -/
  minute : Nat
  /-- The second; 59 during a leap second. -/
  second : Nat
  /-- The nanoseconds since the second began; 10⁹ and more during a leap second. -/
  nanosecond : Nat
  deriving DecidableEq, Repr

/-- A year in at least four digits. Only years of more digits and those before the year
zero carry a sign. -/
def yearText (year : Int) : Text :=
  let digits := paddedNumeral 4 year.natAbs
  if year < 0 then '-' :: digits else if 9999 < year then '+' :: digits else digits

/-- The canonical text of a date and time. Milliseconds are cut off, not rounded. -/
def DateTime.toText (d : DateTime) : Text :=
  yearText d.year ++ '-' :: paddedNumeral 2 d.month ++ '-' :: paddedNumeral 2 d.day ++
    ' ' :: paddedNumeral 2 d.hour ++ ':' :: paddedNumeral 2 d.minute ++
    ':' :: paddedNumeral 2 (d.second + d.nanosecond / 1000000000) ++
    '.' :: paddedNumeral 3 (d.nanosecond % 1000000000 / 1000000)

end Interpolation

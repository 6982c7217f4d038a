import Interpolation.Number.Shortest

/-!
# Interpolation.Toml.Value

The **values of TOML**: strings, integers, floating-point numbers, truth values,
moments, arrays and tables.

The entries of a table are listed in the order in which the document brings them up, until a table
is settled (`Interpolation.Toml.Settled`).
-/

namespace Interpolation.Toml

/-! ### Moments -/

/-- A calendar date. -/
structure Date where
  /-- The year, of four digits. -/
  year : Nat
  /-- The month, from 1. -/
  month : Nat
  /-- The day of the month, from 1. -/
  day : Nat
  deriving DecidableEq, Repr

/-- A time of day. -/
structure Time where
  /-- The hour. -/
  hour : Nat
  /-- The minute. -/
  minute : Nat
  /-- The second, 60 for a leap second. -/
  second : Nat
  /-- The nanoseconds since the second began. -/
  nanosecond : Nat
  deriving DecidableEq, Repr

/-- The distance of a clock from universal time. -/
inductive Offset
  /-- The clock shows universal time. -/
  | universal
  /-- The clock is ahead by a number of minutes; a negative number means that it is behind. -/
  | minutes (n : Int)
  deriving DecidableEq, Repr

/-- A date, a time of day, or both, with an offset only if both are there. -/
inductive Moment
  /-- A date alone. -/
  | date (d : Date)
  /-- A time of day alone. -/
  | time (t : Time)
  /-- A date and a time of day. -/
  | both (d : Date) (t : Time) (offset : Option Offset)
  deriving DecidableEq, Repr

/-- A date in figures. -/
def Date.toText (d : Date) : Text :=
  paddedNumeral 4 d.year ++ '-' :: paddedNumeral 2 d.month ++ '-' :: paddedNumeral 2 d.day

/-- A time of day in figures; the fraction of a second has no zeros at its end and is
left out if it is zero. -/
def Time.toText (t : Time) : Text :=
  paddedNumeral 2 t.hour ++ ':' :: paddedNumeral 2 t.minute ++ ':' :: paddedNumeral 2 t.second ++
    if t.nanosecond = 0 then []
    else '.' :: Text.dropTrailing (· == '0') (paddedNumeral 9 t.nanosecond)

/-- An offset in hours and minutes; a distance of zero counts as ahead. -/
def Offset.toText : Offset → Text
  | .universal => ['Z']
  | .minutes n =>
    (if n < 0 then '-' else '+') :: paddedNumeral 2 (n.natAbs / 60) ++
      ':' :: paddedNumeral 2 (n.natAbs % 60)

/-- A moment in figures. -/
def Moment.toText : Moment → Text
  | .date d => d.toText
  | .time t => t.toText
  | .both d t offset => d.toText ++ 'T' :: t.toText ++ (offset.map Offset.toText).getD []

/-! ### Values -/

/-- A value. -/
inductive Value
  /-- A string. -/
  | string (t : Text)
  /-- An integer. -/
  | integer (n : Int)
  /-- A floating-point number. -/
  | float (x : Binary)
  /-- A truth value. -/
  | boolean (b : Bool)
  /-- A date, a time of day, or both. -/
  | moment (m : Moment)
  /-- An array. -/
  | array (items : List Value)
  /-- A table. -/
  | table (entries : List (Text × Value))

end Interpolation.Toml

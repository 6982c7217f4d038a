import Interpolation.Toml.Lexical
import Interpolation.Toml.Value

/-!
# Interpolation.Toml.Scalar

The **values without parts**: truth values, numbers and moments. What begins with a digit or a sign
is read as a moment if it is one, else as a floating-point number, else as an integer.
-/

namespace Interpolation.Toml

/-! ### Moments -/

/-- Take a number of exactly `digits` digits that lies between `low` and `high`. -/
def figures (digits low high : Nat) : Reader Nat :=
  (Reader.exactly isDigit digits).filterMap fun t =>
    let n := digitsValue t
    if low ≤ n ∧ n ≤ high then some n else none

/-- The number of days of a month. -/
def daysOfMonth (year month : Nat) : Nat :=
  if month = 2 then if year % 4 = 0 ∧ (year % 100 ≠ 0 ∨ year % 400 = 0) then 29 else 28
  else if month = 4 ∨ month = 6 ∨ month = 9 ∨ month = 11 then 30
  else 31

/-- Take a date. -/
def date : Reader Date := do
  let year ← figures 4 0 9999
  Reader.mark '-'
  let month ← figures 2 1 12
  Reader.mark '-'
  let day ← figures 2 1 (daysOfMonth year month)
  return ⟨year, month, day⟩

/-- The nanoseconds that the digits of a fraction of a second write; digits after the
ninth do not count. -/
def nanoseconds (digits : Text) : Nat :=
  let kept := digits.take 9
  digitsValue kept * Nat.pow 10 (9 - kept.length)

/-- Take the fraction of a second. -/
def fraction : Reader Nat := do
  Reader.mark '.'
  (Reader.run isDigit).filterMap fun digits =>
    if digits = [] then none else some (nanoseconds digits)

/-- Take a time of day. A minute may have a second more than sixty. -/
def time : Reader Time := do
  let hour ← figures 2 0 23
  Reader.mark ':'
  let minute ← figures 2 0 59
  Reader.mark ':'
  let second ← figures 2 0 60
  let nanosecond ← Reader.optional fraction
  return ⟨hour, minute, second, nanosecond.getD 0⟩

/-- Take the distance of an offset in hours and minutes, and return it in minutes. -/
def distance : Reader Nat := do
  let hours ← figures 2 0 23
  Reader.mark ':'
  let minutes ← figures 2 0 59
  return 60 * hours + minutes

/-- Take an offset. -/
def offset : Reader Offset := fun t =>
  match t with
  | c :: rest =>
    if c = 'Z' ∨ c = 'z' then some (.universal, rest)
    else if c = '+' then (distance rest).map fun p => (.minutes p.1, p.2)
    else if c = '-' then (distance rest).map fun p => (.minutes (-(p.1 : Int)), p.2)
    else none
  | [] => none

/-- Take the time of day that follows a date, and its offset. -/
def timeOfDate : Reader (Time × Option Offset) := do
  let _ ← Reader.char fun c => c == 'T' || c == 't' || c == ' '
  let t ← time
  let o ← offset.optional
  return (t, o)

/-- Take a moment. -/
def moment : Reader Moment :=
  Reader.orElse
    (do
      let d ← date
      match ← timeOfDate.optional with
      | some (t, o) => return .both d t o
      | none => return .date d)
    (do return .time (← time))

/-! ### Numbers -/

/-- The digits of the class `p` that continue a number, and what remains after them. Between two
digits there may be one underscore. -/
def moreDigits (p : Char → Bool) : Text → Text × Text
  | '_' :: c :: t => if p c then (moreDigits p t).map (c :: ·) id else ([], '_' :: c :: t)
  | c :: t => if p c then (moreDigits p t).map (c :: ·) id else ([], c :: t)
  | [] => ([], [])

/-- Take digits of the class `p`, at least one, and leave out the underscores between them. -/
def groupedDigits (p : Char → Bool) : Reader Text
  | [] => none
  | c :: t => if p c then some ((moreDigits p t).map (c :: ·) id) else none

/-- Take the sign of a number; is it a minus? -/
def sign : Reader Bool := fun t => some (splitSign t)

/-- Take the digits of a decimal integer. Only the number zero begins with a zero. -/
def decimalDigits : Reader Text := fun t =>
  match t with
  | '0' :: rest => some (['0'], rest)
  | _ => groupedDigits isDigit t

/-- Take the exponent of a floating-point number. -/
def exponent : Reader Int := do
  let _ ← Reader.char fun c => c == 'e' || c == 'E'
  let negative ← sign
  let digits ← groupedDigits isDigit
  let n : Int := digitsValue digits
  return if negative then -n else n

/-- Take a floating-point number written in digits: a whole part, then a fraction, an
exponent, or both. -/
def decimalNumber : Reader Decimal := do
  let negative ← sign
  let whole ← decimalDigits
  let fraction ← Reader.optional do
    Reader.mark '.'
    groupedDigits isDigit
  match fraction with
  | some fraction =>
    let e ← exponent.optional
    return Decimal.ofParts negative whole fraction (e.getD 0)
  | none =>
    let e ← exponent
    return Decimal.ofParts negative whole [] e

/-- Take an infinity or a NaN by its name. -/
def namedNumber : Reader Binary := do
  let negative ← sign
  Reader.orElse
    (do Reader.word ['i', 'n', 'f']; return .infinity negative)
    (do Reader.word ['n', 'a', 'n']; return .nan)

/-- Take a floating-point number. A number above the greatest one is refused; one below the least
becomes minus infinity. -/
def float : Reader Binary :=
  Reader.orElse
    (decimalNumber.filterMap fun d =>
      match d.toBinary .double with
      | .infinity false => none
      | x => some x)
    namedNumber

/-- Is the character a hexadecimal digit, in either case? -/
def isHexDigit (c : Char) : Bool := (hexValue? c).isSome

/-- The value of digits to a base. -/
def baseValue (base : Nat) (digits : Text) : Nat :=
  digits.foldl (fun n c => base * n + (hexValue? c).getD 0) 0

/-- Take an integer to base sixteen, eight or two after the mark of the base. -/
def markedInteger (base : Nat) (p : Char → Bool) : Reader Int :=
  (groupedDigits p).filterMap fun digits =>
    let n : Int := baseValue base digits
    if (IntRange.signed 64).holds n then some n else none

/-- Take an integer. It has to fit into 64 bits. -/
def integer : Reader Int := fun t =>
  match t with
  | '0' :: 'x' :: rest => markedInteger 16 isHexDigit rest
  | '0' :: 'o' :: rest => markedInteger 8 (fun c => '0' ≤ c && c ≤ '7') rest
  | '0' :: 'b' :: rest => markedInteger 2 (fun c => c == '0' || c == '1') rest
  | _ =>
    let signed : Reader Int := do
      let negative ← sign
      let digits ← decimalDigits
      let n : Int := digitsValue digits
      return if negative then -n else n
    signed.filterMap (fun n => if (IntRange.signed 64).holds n then some n else none) t

/-! ### Values without parts -/

/-- Take a value that is neither an array nor a table. -/
def scalar : Reader Value := fun t =>
  match t with
  | [] => none
  | c :: _ =>
    if c = '"' ∨ c = '\'' then (anyString t).map fun p => (.string p.1, p.2)
    else if c = 't' then ((Reader.word ['t', 'r', 'u', 'e']) t).map fun p => (.boolean true, p.2)
    else if c = 'f' then
      ((Reader.word ['f', 'a', 'l', 's', 'e']) t).map fun p => (.boolean false, p.2)
    else
      ((moment t).map fun p => (Value.moment p.1, p.2)).or <|
        ((float t).map fun p => (Value.float p.1, p.2)).or <|
          (integer t).map fun p => (Value.integer p.1, p.2)

end Interpolation.Toml

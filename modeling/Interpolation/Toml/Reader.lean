import Interpolation.Text.Basic

/-!
# Interpolation.Toml.Reader

**Readers** take something from the beginning of a text. A reader that finds nothing to take
refuses, and says no more than that: a document with an error has no value, wherever the error is.
-/

namespace Interpolation.Toml

/-- Takes a value from the beginning of a text and returns what remains, or refuses. -/
abbrev Reader (α : Type) := Text → Option (α × Text)

namespace Reader

variable {α β : Type}

/-- Take nothing. -/
def pure (a : α) : Reader α := fun t => some (a, t)

/-- Take one thing after the other. -/
def bind (r : Reader α) (next : α → Reader β) : Reader β := fun t =>
  match r t with
  | none => none
  | some (a, rest) => next a rest

instance : Monad Reader where
  pure := Reader.pure
  bind := Reader.bind

/-- Always refuse. -/
def refuse : Reader α := fun _ => none

/-- Take what the first reader takes, or if it refuses what the second one takes. -/
def orElse (r s : Reader α) : Reader α := fun t => (r t).or (s t)

/-- Take what the reader takes, or nothing if it refuses. -/
def optional (r : Reader α) : Reader (Option α) := fun t =>
  match r t with
  | some (a, rest) => some (some a, rest)
  | none => some (none, t)

/-- Take a value, and refuse if it does not become anything. -/
def filterMap (f : α → Option β) (r : Reader α) : Reader β := fun t =>
  match r t with
  | some (a, rest) => (f a).map fun b => (b, rest)
  | none => none

/-- Take one character of a class. -/
def char (p : Char → Bool) : Reader Char
  | [] => none
  | c :: t => if p c then some (c, t) else none

/-- Take the given character. -/
def mark (c : Char) : Reader Unit
  | [] => none
  | d :: t => if d = c then some ((), t) else none

/-- Take the given characters. -/
def word : Text → Reader Unit
  | [], t => some ((), t)
  | _ :: _, [] => none
  | c :: cs, d :: t => if c = d then word cs t else none

/-- Take all characters of a class that come next. -/
def run (p : Char → Bool) : Reader Text := fun t => some (t.takeWhile p, t.dropWhile p)

/-- Take exactly `n` characters, all of them of a class. -/
def exactly (p : Char → Bool) (n : Nat) : Reader Text := fun t =>
  let taken := t.take n
  if taken.length = n && taken.all p then some (taken, t.drop n) else none

/-- Take items with the character `separator` between any two, as many as there are. A separator
without an item after it is not taken. -/
def separated (item : Reader α) (separator : Char) (t : Text) : List α × Text :=
  match item t with
  | none => ([], t)
  | some (a, rest) =>
    match rest with
    | [] => ([a], [])
    | c :: rest' =>
      if _h : c = separator ∧ rest'.length < t.length then
        match separated item separator rest' with
        | ([], _) => ([a], rest)
        | (a' :: items, rest'') => (a :: a' :: items, rest'')
      else ([a], rest)
termination_by t.length
decreasing_by exact _h.2

end Reader

end Interpolation.Toml

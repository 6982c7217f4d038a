import Interpolation.Text.Utf8

/-!
# Interpolation.FilePath

**Paths** of files. A path is a sequence of bytes, which need not be well-formed UTF-8; it is shown
with U+FFFD for what is not.

`FilePath.absolute?` makes a path absolute without looking at any file: it starts relative paths at
the folder in which the program works, leaves out repeated slashes and `.` parts, and keeps `..`
parts, because what they name depends on links. A slash at the end is kept, and so are exactly two
slashes at the beginning, which may have a meaning of their own. It fails for the empty path, and
for relative paths if it is not known where the program works.
-/

namespace Interpolation

/-- A path. -/
structure FilePath where
  /-- The bytes of the path. -/
  bytes : List UInt8
  deriving DecidableEq

namespace FilePath

/-- The byte of `/`. -/
def slash : UInt8 := 0x2F

/-- The byte of `.`. -/
def dot : UInt8 := 0x2E

/-- The path that a text writes. -/
def ofText (t : Text) : FilePath := ⟨t.toBytes⟩

/-- The path as it is shown. -/
def display (p : FilePath) : Text := Text.ofBytesLossy p.bytes

/-- The bytes between slashes; never an empty list. -/
def splitSlashes : List UInt8 → List (List UInt8)
  | [] => [[]]
  | b :: rest =>
    if b = slash then [] :: splitSlashes rest
    else match splitSlashes rest with
      | [] => [[b]]
      | part :: parts => (b :: part) :: parts

/-- The parts of the path that name something: neither empty nor `.`. -/
def parts (p : FilePath) : List (List UInt8) :=
  (splitSlashes p.bytes).filter fun part => part ≠ [] ∧ part ≠ [dot]

/-- What the absolute form of a path that begins with a slash begins with: two slashes where the
path begins with exactly two, one otherwise. -/
def root (p : FilePath) : List UInt8 :=
  if p.bytes.take 2 = [slash, slash] ∧ p.bytes[2]? ≠ some slash then [slash, slash] else [slash]

/-- The bytes of a path with a part behind them, and a slash in between unless there is one. -/
def extend (start part : List UInt8) : List UInt8 :=
  if start = [] ∨ start.getLast? = some slash then start ++ part else start ++ slash :: part

/-- What the absolute form of a path begins with: the root, or for a relative path the folder in
which the program works. -/
def start? (folder : Option FilePath) (p : FilePath) : Option (List UInt8) :=
  if p.bytes.head? = some slash then some p.root else folder.map FilePath.bytes

/-- The path made absolute, where the program works in `folder`. -/
def absolute? (folder : Option FilePath) (p : FilePath) : Option FilePath :=
  if p.bytes = [] then none
  else (start? folder p).map fun start =>
    let named := p.parts.foldl extend start
    ⟨if p.bytes.getLast? = some slash then extend named [] else named⟩

end FilePath

end Interpolation

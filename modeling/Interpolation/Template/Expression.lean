import Interpolation.Text.Basic

/-!
# Interpolation.Template.Expression

What stands between the braces of a **placeholder**: a name, an optional `!` before it, and an
optional pattern after the first `?`.

Design points:

* The text between the braces is kept untouched (`Expression.raw`), so a placeholder that nothing
  resolves can be written back exactly (`Expression.written`).
* A `?` in first position is part of the name. It starts no pattern, and neither does a later one.
* Names lose the characters up to U+0020 at either end and no others; a no-break space
  belongs to the name.
-/

namespace Interpolation

/-- The body of a placeholder. -/
structure Expression where
  /-- The text between the braces. -/
  raw : Text
  /-- The name to resolve. -/
  name : Text
  /-- Was the name negated with `!`? -/
  invert : Bool
  /-- The template after the first `?`, not yet expanded. -/
  pattern : Option Text
  deriving DecidableEq, Repr

/-- The characters that names lose at either end: the space and the ASCII control
characters below it. -/
def isPadding (c : Char) : Bool := c ≤ ' '

/-- The text without padding at either end. -/
def Text.trimPadding (t : Text) : Text := t.trimBy isPadding

namespace Expression

/-- The part of the body that names the value, and the pattern if there is one. -/
def splitPattern (raw : Text) : Text × Option Text :=
  match raw.cut '?' with
  | some ([], _) => (raw, none)
  | some (head, pattern) => (head, some pattern)
  | none => (raw, none)

/-- The name without its negation, and whether it was negated. Only one `!` is taken off. -/
def splitInversion (head : Text) : Text × Bool :=
  match head.trimPadding with
  | '!' :: name => (Text.trimPadding name, true)
  | name => (name, false)

/-- Read the body of a placeholder. Every text is one. -/
def parse (raw : Text) : Expression :=
  let parts := splitPattern raw
  let named := splitInversion parts.1
  ⟨raw, named.1, named.2, parts.2⟩

/-- Does the placeholder have a pattern? -/
def isConditional (e : Expression) : Bool := e.pattern.isSome

/-- The byte position of the pattern in the body. -/
def patternOffset (e : Expression) : Option Nat :=
  e.pattern.map fun p => e.raw.byteLength - p.byteLength

/-- Is the pattern taken for this replacement of the name? A text that is not empty counts as true,
whatever it says, and `!` turns the decision round. -/
def takesPattern (e : Expression) (replacement : Text) : Bool :=
  e.invert == replacement.isEmpty

/-- The placeholder as it stands in a template. -/
def written (e : Expression) : Text := '$' :: '{' :: e.raw ++ ['}']

/-! ### Facts about reading -/

@[simp] theorem raw_parse (raw : Text) : (parse raw).raw = raw := rfl

@[simp] theorem written_parse (raw : Text) : (parse raw).written = '$' :: '{' :: raw ++ ['}'] := rfl

/-- A pattern is what follows the first `?` of a body that does not begin with one. -/
theorem raw_eq_of_pattern {raw pattern : Text} (h : (parse raw).pattern = some pattern) :
    ∃ head, raw = head ++ '?' :: pattern ∧ '?' ∉ head ∧ head ≠ [] := by
  simp only [parse, splitPattern] at h
  split at h
  · simp at h
  · rename_i head pattern' hne heq
    obtain ⟨hraw, hmem⟩ := Text.eq_of_cut_eq_some heq
    have hp : pattern' = pattern := by simpa using h
    exact ⟨head, hp ▸ hraw, hmem, hne⟩
  · simp at h

/-- A pattern is shorter than its body. -/
theorem length_pattern_lt {raw pattern : Text} (h : (parse raw).pattern = some pattern) :
    pattern.length < raw.length := by
  obtain ⟨head, rfl, -, -⟩ := raw_eq_of_pattern h
  simp only [List.length_append, List.length_cons]
  omega

end Expression

end Interpolation

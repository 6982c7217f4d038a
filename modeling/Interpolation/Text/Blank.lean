import Interpolation.Text.Basic

/-!
# Interpolation.Text.Blank

The characters with the Unicode property **White_Space**, and trimming by them. Values read from a
configuration are trimmed with this class; names of placeholders are not (they lose only characters
up to U+0020, see `Interpolation.Template.Expression`).
-/

namespace Interpolation

/-- The 25 characters of the property White_Space. -/
def isBlank (c : Char) : Bool :=
  let n := c.toNat
  (9 ≤ n && n ≤ 13) || n == 0x20 || n == 0x85 || n == 0xA0 || n == 0x1680 ||
    (0x2000 ≤ n && n ≤ 0x200A) || n == 0x2028 || n == 0x2029 || n == 0x202F || n == 0x205F ||
    n == 0x3000

/-- The text without blanks at either end. -/
def Text.trim (t : Text) : Text := t.trimBy isBlank

end Interpolation

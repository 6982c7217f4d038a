import Interpolation.Text.Basic

/-!
# Interpolation.Text.Ranges

**Ranges of code points**, the form in which this library writes down the properties of the Unicode
standard. A table lists disjoint ranges in ascending order, ends included, so the search ends at the
first range that begins above the code point.
-/

namespace Interpolation

/-- Is the code point in one of the ranges? -/
def inRanges : List (Nat × Nat) → Nat → Bool
  | [], _ => false
  | (low, high) :: ranges, n => low ≤ n && (n ≤ high || inRanges ranges n)

end Interpolation

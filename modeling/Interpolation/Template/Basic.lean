import Interpolation.Template.Segment

/-!
# Interpolation.Template.Basic

**Templates** as trees. A placeholder with a pattern carries the tree of that pattern, so everything
that follows a template (expanding it, checking it) is a structural recursion on one inductive type.

Design points:

* Reading never fails. A text that is no well-formed template is read as one that ends with an
  unterminated placeholder.
* All spans are offsets in the text that was read first, also those inside patterns;
  `Template.ofSegments` moves them by the offset of the pattern.
* Reading ends because a pattern is shorter than its placeholder: `Segment.weight` bounds the texts
  that are still to be read.
-/

namespace Interpolation

/-- A template, piece by piece. -/
inductive Template
  /-- The end of the template. -/
  | done
  /-- Text that stands for itself. -/
  | literal (text : Text) (rest : Template)
  /-- A placeholder without a pattern. -/
  | placeholder (expression : Expression) (span : Span) (rest : Template)
  /-- A placeholder with a pattern. -/
  | conditional (expression : Expression) (span : Span) (pattern : Template) (rest : Template)
  /-- A `${` that is never closed. -/
  | unterminated (span : Span) (rest : Template)
  deriving DecidableEq, Repr

/-! ### The size of segments -/

/-- The number of characters that a segment may still give to read: those of its
pattern and one more. -/
def Segment.weight : Segment → Nat
  | .placeholder e _ => (e.pattern.getD []).length + 1
  | _ => 1

/-- The characters that a sequence of segments may still give to read. -/
def segmentsWeight : List Segment → Nat
  | [] => 0
  | s :: l => s.weight + segmentsWeight l

@[simp] theorem segmentsWeight_nil : segmentsWeight [] = 0 := rfl

@[simp] theorem segmentsWeight_cons (s : Segment) (l : List Segment) :
    segmentsWeight (s :: l) = s.weight + segmentsWeight l := rfl

@[simp] theorem segmentsWeight_append (l l' : List Segment) :
    segmentsWeight (l ++ l') = segmentsWeight l + segmentsWeight l' := by
  induction l with
  | nil => simp
  | cons s l ih => simp only [List.cons_append, segmentsWeight_cons, ih]; omega

theorem Segment.weight_placeholder_le (raw : Text) (span : Span) :
    (Segment.placeholder (Expression.parse raw) span).weight ≤ raw.length + 1 := by
  simp only [Segment.weight]
  cases h : (Expression.parse raw).pattern with
  | none => simp
  | some p =>
    have := Expression.length_pattern_lt h
    simp only [Option.getD_some]
    omega

theorem segmentsWeight_literalSegments (t : Text) :
    segmentsWeight (literalSegments t) ≤ t.length := by
  cases t <;> simp [literalSegments, Segment.weight]

/-- The patterns of a text are, taken together, shorter than the text. -/
theorem segmentsWeight_segmentsFrom_le (start : Nat) (t : Text) :
    segmentsWeight (segmentsFrom start t) ≤ t.length := by
  fun_induction segmentsFrom start t with
  | case1 start t hfind => exact segmentsWeight_literalSegments t
  | case2 start t lead body hfind =>
    have ht := congrArg List.length (Opening.eq_of_find_unclosed hfind)
    have hl := segmentsWeight_literalSegments lead
    simp only [List.length_append, List.length_cons, segmentsWeight_append, segmentsWeight_cons,
      segmentsWeight_nil, Segment.weight] at ht ⊢
    omega
  | case3 start t lead raw rest hfind opened closed ih =>
    have ht := congrArg List.length (Opening.eq_of_find_closed hfind)
    have hl := segmentsWeight_literalSegments lead
    have hp := Segment.weight_placeholder_le raw ⟨opened, closed⟩
    simp only [List.length_append, List.length_cons, segmentsWeight_append,
      segmentsWeight_cons] at ht ⊢
    omega

/-! ### Reading -/

mutual

/-- The template that a text at byte `base` writes. -/
def Template.ofTextAt (base : Nat) (t : Text) : Template :=
  Template.ofSegments base (segments t)
termination_by 2 * t.length + 1
decreasing_by
  have := segmentsWeight_segmentsFrom_le 0 t
  rw [segments]
  omega

/-- The template of a sequence of segments whose spans count from byte `base`. -/
def Template.ofSegments (base : Nat) : List Segment → Template
  | [] => .done
  | .literal text :: rest => .literal text (Template.ofSegments base rest)
  | .unterminated span :: rest => .unterminated (span.shift base) (Template.ofSegments base rest)
  | .placeholder e span :: rest =>
    let span' := span.shift base
    match h : e.pattern with
    | none => .placeholder e span' (Template.ofSegments base rest)
    | some pattern =>
      .conditional e span' (Template.ofTextAt (span'.start + 2 + (e.patternOffset.getD 0)) pattern)
        (Template.ofSegments base rest)
termination_by l => 2 * segmentsWeight l
decreasing_by
  all_goals simp only [segmentsWeight_cons, Segment.weight]
  all_goals try omega
  simp only [h, Option.getD_some]
  omega

end

/-- The template that a text writes. -/
def Template.ofText (t : Text) : Template := Template.ofTextAt 0 t

end Interpolation

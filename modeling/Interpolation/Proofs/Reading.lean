import Interpolation.Proofs.Braces
import Interpolation.Resolver

/-!
# Interpolation.Proofs.Reading

How the **tree of a template** is built from its segments, and what expanding the tree gives when
names never fail to be looked up and patterns may nest without limit.

* `Template.ofSegments_append`: the tree of two sequences of segments is the tree of the first with
  that of the second behind it.
* `Template.output` and `Template.events`: the text and the events of such an expansion, without the
  machinery of runs (`Template.expandAt_total`).
* `Text.templateInduction`: what holds of the pattern of a placeholder and of the text behind it,
  for every placeholder, holds of every text.
-/

namespace Interpolation

namespace Template

/-! ### Trees of segments -/

@[simp] theorem ofSegments_nil (base : Nat) : ofSegments base [] = .done := by
  rw [ofSegments]

@[simp] theorem ofSegments_literal (base : Nat) (text : Text) (l : List Segment) :
    ofSegments base (.literal text :: l) = .literal text (ofSegments base l) := by
  rw [ofSegments]

@[simp] theorem ofSegments_unterminated (base : Nat) (span : Span) (l : List Segment) :
    ofSegments base (.unterminated span :: l) =
      .unterminated (span.shift base) (ofSegments base l) := by
  rw [ofSegments]

theorem ofSegments_placeholder {e : Expression} (h : e.pattern = none) (base : Nat) (span : Span)
    (l : List Segment) :
    ofSegments base (.placeholder e span :: l) =
      .placeholder e (span.shift base) (ofSegments base l) := by
  rw [ofSegments]
  split
  · rfl
  · rename_i hpattern
    rw [h] at hpattern
    cases hpattern

theorem ofSegments_conditional {e : Expression} {pattern : Text} (h : e.pattern = some pattern)
    (base : Nat) (span : Span) (l : List Segment) :
    ofSegments base (.placeholder e span :: l) =
      .conditional e (span.shift base)
        (ofTextAt ((span.shift base).start + 2 + e.patternOffset.getD 0) pattern)
        (ofSegments base l) := by
  rw [ofSegments]
  split
  · rename_i hpattern
    rw [h] at hpattern
    cases hpattern
  · rename_i pattern' hpattern
    obtain rfl : pattern = pattern' := by simpa [h] using hpattern
    rfl

theorem ofTextAt_eq (base : Nat) (t : Text) : ofTextAt base t = ofSegments base (segments t) := by
  rw [ofTextAt]

theorem ofText_eq_ofSegments (t : Text) : ofText t = ofSegments 0 (segmentsFrom 0 t) :=
  ofTextAt_eq 0 t

/-- One template and another behind it. -/
def append : Template → Template → Template
  | .done, t => t
  | .literal text rest, t => .literal text (rest.append t)
  | .placeholder e span rest, t => .placeholder e span (rest.append t)
  | .conditional e span pattern rest, t => .conditional e span pattern (rest.append t)
  | .unterminated span rest, t => .unterminated span (rest.append t)

theorem ofSegments_append (base : Nat) (l l' : List Segment) :
    ofSegments base (l ++ l') = (ofSegments base l).append (ofSegments base l') := by
  induction l with
  | nil => rw [List.nil_append, ofSegments_nil, append]
  | cons s l ih =>
    rw [List.cons_append]
    cases s with
    | literal text => rw [ofSegments_literal, ofSegments_literal, ih, append]
    | unterminated span => rw [ofSegments_unterminated, ofSegments_unterminated, ih, append]
    | placeholder e span =>
      cases h : e.pattern with
      | none => rw [ofSegments_placeholder h, ofSegments_placeholder h, ih, append]
      | some pattern => rw [ofSegments_conditional h, ofSegments_conditional h, ih, append]

/-! ### Expansion with total look-ups and no limit -/

/-- The text that a template expands to. -/
def output (r : Resolver) : Template → Text
  | .done => []
  | .literal text rest => text ++ rest.output r
  | .placeholder e _ rest =>
    (match r e.name with
      | none => e.written
      | some replacement => replacement) ++ rest.output r
  | .conditional e _ pattern rest =>
    (match r e.name with
      | none => e.written
      | some replacement =>
        if e.takesPattern replacement then pattern.output r else []) ++ rest.output r
  | .unterminated _ rest => rest.output r

/-- What happens while a template is expanded. -/
def events (r : Resolver) : Template → List Event
  | .done => []
  | .literal _ rest => rest.events r
  | .placeholder e _ rest =>
    .asked e.name ::
      ((match r e.name with
        | none => [.kept e.name]
        | some _ => []) ++ rest.events r)
  | .conditional e _ pattern rest =>
    .asked e.name ::
      ((match r e.name with
        | none => [.kept e.name]
        | some replacement =>
          if e.takesPattern replacement then pattern.events r else []) ++ rest.events r)
  | .unterminated span rest => .dropped span :: rest.events r

/-- Without a limit and without failing look-ups an expansion succeeds, at every depth. -/
theorem expandAt_total (r : Resolver) (t : Template) (depth : Nat) :
    t.expandAt r.total none depth = ⟨t.events r, .ok (t.output r)⟩ := by
  induction t generalizing depth with
  | done => rfl
  | literal text rest ih =>
    rw [expandAt, ih]
    rfl
  | placeholder e span rest ih =>
    rw [expandAt, ih, events, output, Expression.ask, Resolver.total]
    cases r e.name with
    | none => rfl
    | some replacement => rfl
  | conditional e span pattern rest ihp ih =>
    rw [expandAt, ih, events, output, Expression.ask, Resolver.total]
    cases r e.name with
    | none => rfl
    | some replacement =>
      by_cases htaken : e.takesPattern replacement
      · simp only [htaken, if_true, withinLimit, ihp]
        rfl
      · simp only [htaken]
        rfl
  | unterminated span rest ih =>
    rw [expandAt, ih]
    rfl

theorem output_append (r : Resolver) (t t' : Template) :
    (t.append t').output r = t.output r ++ t'.output r := by
  induction t with
  | done => rfl
  | literal text rest ih => simp only [append, output, ih, List.append_assoc]
  | placeholder e span rest ih => simp only [append, output, ih, List.append_assoc]
  | conditional e span pattern rest _ ih => simp only [append, output, ih, List.append_assoc]
  | unterminated span rest ih => simp only [append, output, ih]

theorem events_append (r : Resolver) (t t' : Template) :
    (t.append t').events r = t.events r ++ t'.events r := by
  induction t with
  | done => rfl
  | literal text rest ih => simp only [append, events, ih]
  | placeholder e span rest ih =>
    simp only [append, events, ih, List.append_assoc, List.cons_append]
  | conditional e span pattern rest _ ih =>
    simp only [append, events, ih, List.append_assoc, List.cons_append]
  | unterminated span rest ih => simp only [append, events, ih, List.cons_append]

/-- The names that are asked for while a template is expanded. -/
def names (r : Resolver) (t : Template) : List Text := (t.events r).filterMap Event.name?

@[simp] theorem names_done (r : Resolver) : done.names r = [] := rfl

@[simp] theorem names_literal (r : Resolver) (text : Text) (rest : Template) :
    (literal text rest).names r = rest.names r := rfl

@[simp] theorem names_placeholder (r : Resolver) (e : Expression) (span : Span) (rest : Template) :
    (placeholder e span rest).names r = e.name :: rest.names r := by
  unfold names
  rw [events]
  cases r e.name <;> rfl

theorem names_conditional (r : Resolver) (e : Expression) (span : Span) (pattern rest : Template) :
    (conditional e span pattern rest).names r =
      e.name ::
        ((match r e.name with
          | none => []
          | some replacement => if e.takesPattern replacement then pattern.names r else []) ++
          rest.names r) := by
  unfold names
  rw [events]
  cases r e.name with
  | none => rfl
  | some replacement =>
    by_cases htaken : e.takesPattern replacement
    · simp only [htaken, if_true, List.filterMap_cons, Event.name?, List.filterMap_append]
    · simp only [htaken]
      rfl

@[simp] theorem names_unterminated (r : Resolver) (span : Span) (rest : Template) :
    (unterminated span rest).names r = rest.names r := rfl

theorem names_append (r : Resolver) (t t' : Template) :
    (t.append t').names r = t.names r ++ t'.names r := by
  unfold names
  rw [events_append, List.filterMap_append]

theorem expandText_total (r : Resolver) (t : Text) :
    expandText r.total none t = ⟨(ofText t).events r, .ok ((ofText t).output r)⟩ :=
  expandAt_total r (ofText t) 0

theorem result_expandText_total (r : Resolver) (t : Text) :
    (expandText r.total none t).result = .ok ((ofText t).output r) :=
  congrArg Run.result (expandText_total r t)

theorem names_expandText_total (r : Resolver) (t : Text) :
    (expandText r.total none t).names = (ofText t).names r :=
  congrArg Run.names (expandText_total r t)

/-! ### Literal text -/

theorem output_ofSegments_literalSegments (r : Resolver) (base : Nat) (t : Text) :
    (ofSegments base (literalSegments t)).output r = t := by
  unfold literalSegments
  split
  · rename_i hnil
    rw [hnil, ofSegments_nil, output]
  · rw [ofSegments_literal, ofSegments_nil, output, output, List.append_nil]

theorem events_ofSegments_literalSegments (r : Resolver) (base : Nat) (t : Text) :
    (ofSegments base (literalSegments t)).events r = [] := by
  unfold literalSegments
  split
  · rw [ofSegments_nil, events]
  · rw [ofSegments_literal, ofSegments_nil, events, events]

theorem names_ofSegments_literalSegments (r : Resolver) (base : Nat) (t : Text) :
    (ofSegments base (literalSegments t)).names r = [] := by
  rw [names, events_ofSegments_literalSegments, List.filterMap_nil]

end Template

/-! ### Induction over patterns -/

/-- **Induction along the placeholders of a text and their patterns.** -/
@[elab_as_elim]
theorem Text.templateInduction {motive : Text → Prop}
    (plain : ∀ t, ¬ HasOpening t → motive t)
    (unclosed : ∀ lead body, ¬ HasOpening lead → StaysOpen 0 body →
      motive (lead ++ '$' :: '{' :: body))
    (closed : ∀ lead raw rest, ¬ HasOpening lead → BraceBalanced raw →
      (∀ pattern, (Expression.parse raw).pattern = some pattern → motive pattern) → motive rest →
      motive (lead ++ '$' :: '{' :: (raw ++ '}' :: rest)))
    (t : Text) : motive t := by
  induction h : t.length using Nat.strongRecOn generalizing t with
  | ind n ih =>
    induction t using Text.segmentInduction with
    | plain t ht => exact plain t ht
    | unclosed lead body hl hb => exact unclosed lead body hl hb
    | closed lead raw rest hl hr _ =>
      have hlen : raw.length + rest.length < n := by
        rw [← h]
        simp only [List.length_append, List.length_cons]
        omega
      refine closed lead raw rest hl hr (fun pattern hp => ?_) (ih rest.length (by omega) rest rfl)
      have := Expression.length_pattern_lt hp
      exact ih pattern.length (by omega) pattern rfl

/-! ### Trees and the expressions in them -/

namespace Template

/-- The placeholders without a pattern in the tree have none in their expressions, and
the others have one. -/
def Faithful : Template → Prop
  | .done => True
  | .literal _ rest => rest.Faithful
  | .placeholder e _ rest => e.pattern = none ∧ rest.Faithful
  | .conditional e _ pattern rest => e.pattern.isSome ∧ pattern.Faithful ∧ rest.Faithful
  | .unterminated _ rest => rest.Faithful

theorem Faithful.append {t t' : Template} (h : t.Faithful) (h' : t'.Faithful) :
    (t.append t').Faithful := by
  induction t with
  | done => exact h'
  | literal text rest ih => exact ih h
  | placeholder e span rest ih => exact ⟨h.1, ih h.2⟩
  | conditional e span pattern rest _ ih => exact ⟨h.1, h.2.1, ih h.2.2⟩
  | unterminated span rest ih => exact ih h

theorem faithful_ofSegments_literalSegments (base : Nat) (t : Text) :
    (ofSegments base (literalSegments t)).Faithful := by
  unfold literalSegments
  split
  · rw [ofSegments_nil]
    trivial
  · rw [ofSegments_literal, ofSegments_nil]
    trivial

/-- The tree of a text says of every placeholder whether it has a pattern. -/
theorem faithful_ofSegments_segmentsFrom (t : Text) (base start : Nat) :
    (ofSegments base (segmentsFrom start t)).Faithful := by
  induction t using Text.templateInduction generalizing base start with
  | plain t ht =>
    rw [segmentsFrom_of_not_hasOpening ht]
    exact faithful_ofSegments_literalSegments base t
  | unclosed lead body hl hb =>
    rw [segmentsFrom_unclosed hl hb, ofSegments_append, ofSegments_unterminated, ofSegments_nil]
    exact (faithful_ofSegments_literalSegments base lead).append trivial
  | closed lead raw rest hl hr ihp ih =>
    rw [segmentsFrom_closed hl hr, ofSegments_append]
    refine (faithful_ofSegments_literalSegments base lead).append ?_
    cases hp : (Expression.parse raw).pattern with
    | none =>
      rw [ofSegments_placeholder hp]
      exact ⟨hp, ih base _⟩
    | some pattern =>
      rw [ofSegments_conditional hp, ofTextAt_eq]
      exact ⟨hp ▸ rfl, ihp pattern hp _ 0, ih base _⟩

theorem faithful_ofText (t : Text) : (ofText t).Faithful := by
  rw [ofText_eq_ofSegments]
  exact faithful_ofSegments_segmentsFrom t 0 0

/-! ### Where a template stands -/

/-- The template with every span forgotten. -/
def unplaced : Template → Template
  | .done => .done
  | .literal text rest => .literal text rest.unplaced
  | .placeholder e _ rest => .placeholder e ⟨0, 0⟩ rest.unplaced
  | .conditional e _ pattern rest => .conditional e ⟨0, 0⟩ pattern.unplaced rest.unplaced
  | .unterminated _ rest => .unterminated ⟨0, 0⟩ rest.unplaced

theorem unplaced_append (t t' : Template) :
    (t.append t').unplaced = t.unplaced.append t'.unplaced := by
  induction t with
  | done => rfl
  | literal text rest ih => simp only [append, unplaced, ih]
  | placeholder e span rest ih => simp only [append, unplaced, ih]
  | conditional e span pattern rest _ ih => simp only [append, unplaced, ih]
  | unterminated span rest ih => simp only [append, unplaced, ih]

theorem unplaced_ofSegments_literalSegments (base base' : Nat) (t : Text) :
    (ofSegments base (literalSegments t)).unplaced =
      (ofSegments base' (literalSegments t)).unplaced := by
  unfold literalSegments
  split
  · rw [ofSegments_nil, ofSegments_nil]
  · rw [ofSegments_literal, ofSegments_literal, ofSegments_nil, ofSegments_nil]

/-- But for its spans the tree of a text does not depend on where the text stands. -/
theorem unplaced_ofSegments_segmentsFrom (t : Text) (base start base' start' : Nat) :
    (ofSegments base (segmentsFrom start t)).unplaced =
      (ofSegments base' (segmentsFrom start' t)).unplaced := by
  induction t using Text.templateInduction generalizing base start base' start' with
  | plain t ht =>
    rw [segmentsFrom_of_not_hasOpening ht, segmentsFrom_of_not_hasOpening ht]
    exact unplaced_ofSegments_literalSegments base base' t
  | unclosed lead body hl hb =>
    rw [segmentsFrom_unclosed hl hb, segmentsFrom_unclosed hl hb, ofSegments_append,
      ofSegments_append, unplaced_append, unplaced_append,
      unplaced_ofSegments_literalSegments base base' lead, ofSegments_unterminated,
      ofSegments_unterminated, ofSegments_nil, ofSegments_nil]
    simp only [unplaced]
  | closed lead raw rest hl hr ihp ih =>
    rw [segmentsFrom_closed hl hr, segmentsFrom_closed hl hr, ofSegments_append, ofSegments_append,
      unplaced_append, unplaced_append, unplaced_ofSegments_literalSegments base base' lead]
    refine congrArg _ ?_
    cases hp : (Expression.parse raw).pattern with
    | none =>
      rw [ofSegments_placeholder hp, ofSegments_placeholder hp, unplaced, unplaced]
      exact congrArg _ (ih ..)
    | some pattern =>
      rw [ofSegments_conditional hp, ofSegments_conditional hp, unplaced, unplaced,
        ofTextAt_eq, ofTextAt_eq]
      exact congr (congrArg _ (ihp pattern hp ..)) (ih ..)

theorem unplaced_ofTextAt (base : Nat) (t : Text) :
    (ofTextAt base t).unplaced = (ofText t).unplaced := by
  rw [ofText_eq_ofSegments, ofTextAt_eq]
  exact unplaced_ofSegments_segmentsFrom t base 0 0 0

/-- What a template expands to does not depend on its spans. -/
theorem output_unplaced (r : Resolver) (t : Template) : t.unplaced.output r = t.output r := by
  induction t with
  | done => rfl
  | literal text rest ih => simp only [unplaced, output, ih]
  | placeholder e span rest ih => simp only [unplaced, output, ih]
  | conditional e span pattern rest ihp ih => simp only [unplaced, output, ihp, ih]
  | unterminated span rest ih => simp only [unplaced, output, ih]

end Template

end Interpolation

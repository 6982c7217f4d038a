import Interpolation.Proofs.Concatenation
import Interpolation.Proofs.Unterminated

/-!
# Interpolation.Proofs.Seams

**Two templates one behind the other** are one template: its segments, its expansion and its
diagnostics are those of the first and then those of the second, moved by the length of the first.

Two things can go wrong at the seam, and both are hypotheses here. The first template may end
inside a placeholder, which then goes on in the second, and a `$` at its end may open one with a
`{` that follows (`Seamless`).

* `Segment.shift`, `Template.shift`, `Finding.shift`: the same thing `n` bytes further on.
* `segmentsFrom_add`, `ofTextAt_add`: a text further on is read as the same text, moved.
* `reading_goes_on_at_seam`: what follows for segments, expansions and checks.
-/

namespace Interpolation

/-! ### The same thing further on -/

theorem Span.shift_shift (s : Span) (m n : Nat) : (s.shift m).shift n = s.shift (m + n) := by
  simp only [Span.shift, Nat.add_assoc]

/-- The segment `n` bytes further on. -/
def Segment.shift (n : Nat) : Segment → Segment
  | .literal text => .literal text
  | .placeholder e span => .placeholder e (span.shift n)
  | .unterminated span => .unterminated (span.shift n)

/-- The template `n` bytes further on. -/
def Template.shift (n : Nat) : Template → Template
  | .done => .done
  | .literal text rest => .literal text (rest.shift n)
  | .placeholder e span rest => .placeholder e (span.shift n) (rest.shift n)
  | .conditional e span pattern rest =>
    .conditional e (span.shift n) (pattern.shift n) (rest.shift n)
  | .unterminated span rest => .unterminated (span.shift n) (rest.shift n)

/-- The finding `n` bytes further on. -/
def Finding.shift (n : Nat) (f : Finding) : Finding := ⟨f.problem, f.span.shift n⟩

theorem map_shift_literalSegments (t : Text) (n : Nat) :
    (literalSegments t).map (Segment.shift n) = literalSegments t := by
  unfold literalSegments
  split <;> rfl

/-- The segments of a text further on are those of the text, moved. -/
theorem segmentsFrom_add (t : Text) (start n : Nat) :
    segmentsFrom (start + n) t = (segmentsFrom start t).map (Segment.shift n) := by
  induction t using Text.segmentInduction generalizing start with
  | plain t ht =>
    rw [segmentsFrom_of_not_hasOpening ht, segmentsFrom_of_not_hasOpening ht,
      map_shift_literalSegments]
  | unclosed lead body hl hb =>
    rw [segmentsFrom_unclosed hl hb, segmentsFrom_unclosed hl hb, List.map_append,
      map_shift_literalSegments]
    simp only [List.map_cons, List.map_nil, Segment.shift, Span.shift, Nat.add_right_comm]
  | closed lead raw rest hl hr ih =>
    have hrest : start + n + lead.byteLength + raw.byteLength + 3 =
        start + lead.byteLength + raw.byteLength + 3 + n := by
      omega
    rw [segmentsFrom_closed hl hr, segmentsFrom_closed hl hr, List.map_append, List.map_cons,
      map_shift_literalSegments, hrest, ih, Segment.shift, Span.shift, Nat.add_right_comm start]

theorem segmentsFrom_eq_map_shift (t : Text) (n : Nat) :
    segmentsFrom n t = (segments t).map (Segment.shift n) := by
  rw [segments, ← segmentsFrom_add, Nat.zero_add]

namespace Template

theorem shift_append (n : Nat) (t t' : Template) :
    (t.append t').shift n = (t.shift n).append (t'.shift n) := by
  induction t with
  | done => rfl
  | literal text rest ih => simp only [append, shift, ih]
  | placeholder e span rest ih => simp only [append, shift, ih]
  | conditional e span pattern rest _ ih => simp only [append, shift, ih]
  | unterminated span rest ih => simp only [append, shift, ih]

theorem ofSegments_map_shift (base n : Nat) (l : List Segment) :
    ofSegments base (l.map (Segment.shift n)) = ofSegments (base + n) l := by
  induction l with
  | nil => rw [List.map_nil, ofSegments_nil, ofSegments_nil]
  | cons s l ih =>
    rw [List.map_cons]
    cases s with
    | literal text => rw [Segment.shift, ofSegments_literal, ofSegments_literal, ih]
    | unterminated span =>
      rw [Segment.shift, ofSegments_unterminated, ofSegments_unterminated, ih, Span.shift_shift,
        Nat.add_comm n base]
    | placeholder e span =>
      cases hp : e.pattern with
      | none =>
        rw [Segment.shift, ofSegments_placeholder hp, ofSegments_placeholder hp, ih,
          Span.shift_shift, Nat.add_comm n base]
      | some pattern =>
        rw [Segment.shift, ofSegments_conditional hp, ofSegments_conditional hp, ih,
          Span.shift_shift, Nat.add_comm n base]

theorem ofSegments_literalSegments_add (base n : Nat) (t : Text) :
    ofSegments (base + n) (literalSegments t) = (ofSegments base (literalSegments t)).shift n := by
  unfold literalSegments
  split
  · rw [ofSegments_nil, ofSegments_nil, shift]
  · rw [ofSegments_literal, ofSegments_literal, ofSegments_nil, ofSegments_nil, shift, shift]

/-- The tree of a text further on is that of the text, moved, the patterns with it. -/
theorem ofSegments_segmentsFrom_add (t : Text) (base start n : Nat) :
    ofSegments (base + n) (segmentsFrom start t) =
      (ofSegments base (segmentsFrom start t)).shift n := by
  induction t using Text.templateInduction generalizing base start with
  | plain t ht =>
    rw [segmentsFrom_of_not_hasOpening ht]
    exact ofSegments_literalSegments_add base n t
  | unclosed lead body hl hb =>
    rw [segmentsFrom_unclosed hl hb, ofSegments_append, ofSegments_append, shift_append,
      ofSegments_literalSegments_add, ofSegments_unterminated, ofSegments_unterminated,
      ofSegments_nil, ofSegments_nil, shift, shift, Span.shift_shift]
  | closed lead raw rest hl hr ihp ih =>
    rw [segmentsFrom_closed hl hr, ofSegments_append, ofSegments_append, shift_append,
      ofSegments_literalSegments_add]
    refine congrArg _ ?_
    cases hp : (Expression.parse raw).pattern with
    | none =>
      rw [ofSegments_placeholder hp, ofSegments_placeholder hp, shift, Span.shift_shift, ih]
    | some pattern =>
      rw [ofSegments_conditional hp, ofSegments_conditional hp, shift, Span.shift_shift,
        ih, ofTextAt_eq, ofTextAt_eq, segments, ← ihp pattern hp]
      -- The pattern begins as far behind its placeholder as before.
      simp only [Span.shift, ← Nat.add_assoc, Nat.add_right_comm _ n]

theorem ofTextAt_add (base n : Nat) (t : Text) :
    ofTextAt (base + n) t = (ofTextAt base t).shift n := by
  rw [ofTextAt_eq, ofTextAt_eq]
  exact ofSegments_segmentsFrom_add t base 0 n

theorem ofTextAt_eq_shift (n : Nat) (t : Text) : ofTextAt n t = (ofText t).shift n := by
  rw [ofText, ← ofTextAt_add, Nat.zero_add]

theorem names_shift (r : Resolver) (n : Nat) (t : Template) : (t.shift n).names r = t.names r := by
  induction t with
  | done => rfl
  | literal text rest ih => exact ih
  | placeholder e span rest ih => rw [shift, names_placeholder, names_placeholder, ih]
  | conditional e span pattern rest ihp ih =>
    rw [shift, names_conditional, names_conditional, ihp, ih]
  | unterminated span rest ih => exact ih

theorem names_ofTextAt (r : Resolver) (base : Nat) (t : Text) :
    (ofTextAt base t).names r = (ofText t).names r := by
  rw [ofTextAt_eq_shift, names_shift]

theorem nameFindings_shift (r : Resolver) (e : Expression) (span : Span) (n : Nat) :
    nameFindings r e (span.shift n) = (nameFindings r e span).map (Finding.shift n) := by
  unfold nameFindings
  split
  · rfl
  · split <;> rfl

/-- A template further on has the same problems further on. -/
theorem findings_shift (r : Resolver) (n : Nat) (t : Template) :
    (t.shift n).findings r = (t.findings r).map (Finding.shift n) := by
  induction t with
  | done => rfl
  | literal text rest ih => exact ih
  | placeholder e span rest ih =>
    simp only [shift, findings, ih, nameFindings_shift, List.map_append]
  | conditional e span pattern rest ihp ih =>
    simp only [shift, findings, ihp, ih, nameFindings_shift, List.map_append]
  | unterminated span rest ih => simp only [shift, findings, ih, List.map_cons, Finding.shift]

/-! ### At the seam -/

theorem names_ofSegments_glue (r : Resolver) (base : Nat) (l l' : List Segment) :
    (ofSegments base (glue l l')).names r =
      (ofSegments base l).names r ++ (ofSegments base l').names r := by
  rcases glue_cases l l' with h | ⟨front, u, v, back, rfl, rfl, h⟩
  · rw [h, ofSegments_append, names_append]
  · simp only [h, ofSegments_append, names_append, ofSegments_literal, ofSegments_nil,
      names_literal, names_done, List.append_nil]

theorem findings_ofSegments_glue (r : Resolver) (base : Nat) (l l' : List Segment) :
    (ofSegments base (glue l l')).findings r =
      (ofSegments base l).findings r ++ (ofSegments base l').findings r := by
  rcases glue_cases l l' with h | ⟨front, u, v, back, rfl, rfl, h⟩
  · rw [h, ofSegments_append, findings_append]
  · simp only [h, ofSegments_append, findings_append, ofSegments_literal, ofSegments_nil, findings,
      List.append_nil]

end Template

/-- Behind a self-contained text the questions are those that are asked without it. -/
theorem SelfContained.names_append {a : Text} (ha : SelfContained a) (b : Text) (r : Resolver) :
    (Template.ofText (a ++ b)).names r =
      (Template.ofText a).names r ++ (Template.ofText b).names r := by
  have hread := segmentsFrom_append ha.closed (ha.seamless b) 0
  rw [Nat.zero_add, segmentsFrom_eq_map_shift b] at hread
  rw [Template.ofText_eq_ofSegments, hread, Template.names_ofSegments_glue,
    Template.ofSegments_map_shift, ← Template.ofText_eq_ofSegments, ← Template.ofTextAt_eq,
    Template.names_ofTextAt]

theorem allPlaceholders_of_complete {t : Text} (h : ∀ s ∈ segments t, ¬ s.isUnterminated) :
    AllPlaceholders (fun _ => True) t := by
  refine (allPlaceholders_iff 0).2 ?_
  intro s hs
  cases s with
  | literal text => trivial
  | placeholder e span => trivial
  | unterminated span => exact h _ hs rfl

/-- **Reading goes on at a seam.** If the first text has no unterminated placeholder and its end
opens none with the beginning of the second, the segments of both together are those of the first
and those of the second further on, with the literals that meet made one. So they expand to both
expansions one behind the other, the questions go on where they ended, and so do the diagnostics. -/
theorem reading_goes_on_at_seam {a b : Text} (hall : ∀ s ∈ segments a, ¬ s.isUnterminated)
    (hseam : Seamless a b) (r : Resolver) :
    let first := expandText r.total none a
    let second := expandText r.total none b
    let both := expandText r.total none (a ++ b)
    segments (a ++ b) = glue (segments a) ((segments b).map (Segment.shift a.byteLength)) ∧
      (∃ u v, first.result = .ok u ∧ second.result = .ok v ∧ both.result = .ok (u ++ v)) ∧
      both.names = first.names ++ second.names ∧
      check (a ++ b) r = check a r ++ (check b r).map (Finding.shift a.byteLength) := by
  intro first second both
  have hsegments : segments (a ++ b) =
      glue (segments a) ((segments b).map (Segment.shift a.byteLength)) := by
    have hread := segmentsFrom_append (allPlaceholders_of_complete hall) hseam 0
    rw [Nat.zero_add, segmentsFrom_eq_map_shift b] at hread
    exact hread
  have hboth : Template.ofText (a ++ b) =
      Template.ofSegments 0
        (glue (segments a) ((segments b).map (Segment.shift a.byteLength))) := by
    rw [← hsegments, Template.ofText, Template.ofTextAt_eq]
  have hsecond : Template.ofSegments 0 ((segments b).map (Segment.shift a.byteLength)) =
      (Template.ofText b).shift a.byteLength := by
    rw [Template.ofSegments_map_shift, Nat.zero_add, ← Template.ofTextAt_eq,
      Template.ofTextAt_eq_shift]
  have hfirst : Template.ofSegments 0 (segments a) = Template.ofText a :=
    (Template.ofTextAt_eq 0 a).symm
  refine ⟨hsegments,
    ⟨(Template.ofText a).output r, (Template.ofText b).output r, ?_, ?_, ?_⟩, ?_, ?_⟩
  · exact congrArg Run.result (Template.expandText_total r a)
  · exact congrArg Run.result (Template.expandText_total r b)
  · show (expandText r.total none (a ++ b)).result = _
    rw [Template.expandText_total, hboth, Template.output_ofSegments_glue, hfirst, hsecond,
      ← Template.ofTextAt_eq_shift, Template.output_ofTextAt]
  · show (expandText r.total none (a ++ b)).names =
      (expandText r.total none a).names ++ (expandText r.total none b).names
    simp only [Template.expandText_total]
    show (Template.ofText (a ++ b)).names r =
      (Template.ofText a).names r ++ (Template.ofText b).names r
    rw [hboth, Template.names_ofSegments_glue, hfirst, hsecond, Template.names_shift]
  · rw [check, hboth, Template.findings_ofSegments_glue, hfirst, hsecond, Template.findings_shift]
    rfl

/-- The first text ends with a `$`, and the second begins with another one. Both are one literal,
and the unknown name is found behind the seven bytes of the first text. -/
theorem reading_goes_on_behind_dollar :
    let a : Text := ['é', '$', '{', 'k', '}', '$']
    let b : Text := ['$', '$', '{', 'q', '?', '}']
    let r : Resolver := fun name => if name = ['k'] then some ['{'] else none
    (∀ s ∈ segments a, ¬ s.isUnterminated) ∧ Seamless a b ∧
      .literal ['$', '$'] ∈ segments (a ++ b) ∧
      (expandText r.total none (a ++ b)).result = .ok (['é', '{', '$'] ++ b) ∧
      check (a ++ b) r = [⟨.unresolved ['q'], ⟨8, 13⟩⟩] := by
  intro a b r
  have hall : ∀ s ∈ segments a, ¬ s.isUnterminated := by decide +kernel
  have hseam : Seamless a b := fun hmeet => absurd hmeet.2 (by decide)
  obtain ⟨hsegments, ⟨u, v, hu, hv, hboth⟩, -, hcheck⟩ := reading_goes_on_at_seam hall hseam r
  have ha : (expandText r.total none a).result = .ok ['é', '{', '$'] := by decide +kernel
  have hb : (expandText r.total none b).result = .ok b := by decide +kernel
  obtain rfl := Except.ok.inj (hu.symm.trans ha)
  obtain rfl := Except.ok.inj (hv.symm.trans hb)
  refine ⟨hall, hseam, ?_, hboth, hcheck.trans (by decide +kernel)⟩
  rw [hsegments]
  decide +kernel

end Interpolation

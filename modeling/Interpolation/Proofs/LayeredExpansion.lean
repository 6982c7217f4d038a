import Interpolation.Processor
import Interpolation.Proofs.Concatenation

/-!
# Interpolation.Proofs.LayeredExpansion

When **two passes are one**.

Processing a template with arguments and a configuration expands it twice, and the second pass
reads what the first one wrote. `Template.layered` does both at once: a placeholder goes to the
arguments first and then to the configuration, and a pattern that the configuration takes sees
the configuration alone.

Both are the same if the second pass finds no placeholder but those that the first one left
(`processBoth_eq_layered`). Two things can bring in others: an argument with a `$`, and a
literal that ends with `$`, before an argument that begins with `{`. Without them the text of
the first pass is self-contained at every place where two of its parts meet, and the second pass
reads the parts one by one.
-/

namespace Interpolation

namespace Template

/-- The literal texts of a template, those of its patterns included. -/
def literals : Template → List Text
  | .done => []
  | .literal text rest => text :: rest.literals
  | .placeholder _ _ rest => rest.literals
  | .conditional _ _ pattern rest => pattern.literals ++ rest.literals
  | .unterminated _ rest => rest.literals

/-- The text that a template expands to in one pass against two resolvers, `A` before `C`. -/
def layered (A C : Resolver) : Template → Text
  | .done => []
  | .literal text rest => text ++ rest.layered A C
  | .placeholder e _ rest =>
    (match A e.name with
      | some replacement => replacement
      | none =>
        match C e.name with
        | some replacement => replacement
        | none => e.written) ++ rest.layered A C
  | .conditional e _ pattern rest =>
    (match A e.name with
      | some replacement => if e.takesPattern replacement then pattern.layered A C else []
      | none =>
        match C e.name with
        | some replacement => if e.takesPattern replacement then pattern.output C else []
        | none => e.written) ++ rest.layered A C
  | .unterminated _ rest => rest.layered A C

theorem literals_append (t t' : Template) : (t.append t').literals = t.literals ++ t'.literals := by
  induction t with
  | done => rfl
  | literal text rest ih => simp only [append, literals, ih, List.cons_append]
  | placeholder e span rest ih => simp only [append, literals, ih]
  | conditional e span pattern rest _ ih => simp only [append, literals, ih, List.append_assoc]
  | unterminated span rest ih => simp only [append, literals, ih]

theorem layered_append (A C : Resolver) (t t' : Template) :
    (t.append t').layered A C = t.layered A C ++ t'.layered A C := by
  induction t with
  | done => rfl
  | literal text rest ih => simp only [append, layered, ih, List.append_assoc]
  | placeholder e span rest ih => simp only [append, layered, ih, List.append_assoc]
  | conditional e span pattern rest _ ih => simp only [append, layered, ih, List.append_assoc]
  | unterminated span rest ih => simp only [append, layered, ih]

/-! ### The two passes on a part of a template -/

/-- The first pass over the tree writes a text that can stand before anything, and the second pass
makes of it what one layered pass makes of the tree. -/
structure PassesMerge (A C : Resolver) (t : Template) : Prop where
  /-- What the first pass writes is self-contained. -/
  selfContained : SelfContained (t.output A)
  /-- The second pass over it is the layered pass. -/
  output_eq : (ofText (t.output A)).output C = t.layered A C

variable {A C : Resolver}

theorem PassesMerge.append {t t' : Template} (h : t.PassesMerge A C) (h' : t'.PassesMerge A C) :
    (t.append t').PassesMerge A C := by
  constructor
  · rw [output_append]
    exact h.selfContained.append h'.selfContained
  · rw [output_append, h.selfContained.output_append, layered_append, h.output_eq, h'.output_eq]

theorem passesMerge_done : done.PassesMerge A C := by
  refine ⟨selfContained_nil, ?_⟩
  rw [output, output_ofText_of_not_hasOpening not_hasOpening_nil, layered]

/-- A literal that does not end with `$` is written and read as it stands. -/
theorem passesMerge_literalSegments {lead : Text} (hl : ¬ HasOpening lead) {base : Nat}
    (hlast : ∀ text ∈ (ofSegments base (literalSegments lead)).literals, text.getLast? ≠ some '$') :
    (ofSegments base (literalSegments lead)).PassesMerge A C := by
  unfold literalSegments at hlast ⊢
  split
  · rw [ofSegments_nil]
    exact passesMerge_done
  · rename_i hne
    rw [if_neg hne, ofSegments_literal, ofSegments_nil] at hlast
    have hself : SelfContained lead :=
      selfContained_of_not_hasOpening hl (hlast lead List.mem_cons_self)
    rw [ofSegments_literal, ofSegments_nil]
    constructor
    · rw [output, output, List.append_nil]
      exact hself
    · rw [output, output, List.append_nil, output_ofText_of_not_hasOpening hl, layered, layered,
        List.append_nil]

/-- The second pass reads a placeholder that the first one left as that placeholder. -/
theorem output_ofText_written {raw : Text} (hr : BraceBalanced raw) (r : Resolver) :
    (ofText (Expression.parse raw).written).output r =
      (ofSegments 0 [.placeholder (Expression.parse raw) ⟨0, raw.byteLength + 3⟩]).output r := by
  rw [ofText, ofTextAt_eq, segments_written hr]

/-- A placeholder without a pattern. What the first pass inserts has no `$`. -/
theorem passesMerge_placeholder {raw : Text} (hr : BraceBalanced raw)
    (hp : (Expression.parse raw).pattern = none) (span : Span)
    (hA : ∀ name text, A name = some text → '$' ∉ text) :
    (placeholder (Expression.parse raw) span done).PassesMerge A C := by
  cases ha : A (Expression.parse raw).name with
  | some replacement =>
    have hout : (placeholder (Expression.parse raw) span done).output A = replacement := by
      simp only [output, ha, List.append_nil]
    have hplain := hA _ _ ha
    refine ⟨hout ▸ selfContained_of_not_mem hplain, ?_⟩
    rw [hout, output_ofText_of_not_hasOpening (not_hasOpening_of_not_mem hplain)]
    simp only [layered, ha, List.append_nil]
  | none =>
    have hout : (placeholder (Expression.parse raw) span done).output A =
        (Expression.parse raw).written := by
      simp only [output, ha, List.append_nil]
    refine ⟨hout ▸ selfContained_written hr, ?_⟩
    rw [hout, output_ofText_written hr, ofSegments_placeholder hp, ofSegments_nil]
    simp only [output, layered, ha]
    cases C (Expression.parse raw).name <;> rfl

/-- A placeholder with a pattern. If the first pass takes the pattern it expands it, and the second
pass reads what it wrote; if it leaves the placeholder, the pattern is left with it. -/
theorem passesMerge_conditional {raw pattern : Text} (hr : BraceBalanced raw)
    (hp : (Expression.parse raw).pattern = some pattern) {base : Nat} (span : Span)
    (hpattern : (ofTextAt base pattern).PassesMerge A C) :
    (conditional (Expression.parse raw) span (ofTextAt base pattern) done).PassesMerge A C := by
  cases ha : A (Expression.parse raw).name with
  | some replacement =>
    by_cases htaken : (Expression.parse raw).takesPattern replacement
    · have hout : (conditional (Expression.parse raw) span (ofTextAt base pattern) done).output A =
          (ofTextAt base pattern).output A := by
        simp only [output, ha, htaken, if_true, List.append_nil]
      refine ⟨hout ▸ hpattern.selfContained, ?_⟩
      rw [hout, hpattern.output_eq]
      simp only [layered, ha, htaken, if_true, List.append_nil]
    · have hout :
          (conditional (Expression.parse raw) span (ofTextAt base pattern) done).output A = [] := by
        simp only [output, ha, htaken, Bool.false_eq_true, if_false, List.append_nil]
      refine ⟨hout ▸ selfContained_nil, ?_⟩
      rw [hout, output_ofText_of_not_hasOpening not_hasOpening_nil]
      simp only [layered, ha, htaken, Bool.false_eq_true, if_false, List.append_nil]
  | none =>
    have hout : (conditional (Expression.parse raw) span (ofTextAt base pattern) done).output A =
        (Expression.parse raw).written := by
      simp only [output, ha, List.append_nil]
    refine ⟨hout ▸ selfContained_written hr, ?_⟩
    rw [hout, output_ofText_written hr, ofSegments_conditional hp, ofSegments_nil]
    simp only [output, layered, ha, output_ofTextAt]
    cases C (Expression.parse raw).name <;> rfl

/-- Two passes over a template merge into one if no literal ends with `$` and no
argument has a `$`. -/
theorem passesMerge (hA : ∀ name text, A name = some text → '$' ∉ text) (t : Text)
    (base start : Nat)
    (hlast : ∀ text ∈ (ofSegments base (segmentsFrom start t)).literals, text.getLast? ≠ some '$') :
    (ofSegments base (segmentsFrom start t)).PassesMerge A C := by
  induction t using Text.templateInduction generalizing base start with
  | plain t ht =>
    rw [segmentsFrom_of_not_hasOpening ht] at hlast ⊢
    exact passesMerge_literalSegments ht hlast
  | unclosed lead body hl hb =>
    rw [segmentsFrom_unclosed hl hb, ofSegments_append, literals_append] at hlast
    rw [segmentsFrom_unclosed hl hb, ofSegments_append, ofSegments_unterminated, ofSegments_nil]
    refine (passesMerge_literalSegments hl
      fun text h => hlast text (List.mem_append_left _ h)).append ?_
    -- The tail is dropped by the first pass, and by the layered one.
    have hdone := passesMerge_done (A := A) (C := C)
    exact ⟨hdone.selfContained, hdone.output_eq⟩
  | closed lead raw rest hl hr ihp ih =>
    rw [segmentsFrom_closed hl hr, ofSegments_append, literals_append, ← List.singleton_append,
      ofSegments_append, literals_append] at hlast
    rw [segmentsFrom_closed hl hr, ofSegments_append, ← List.singleton_append, ofSegments_append]
    have hlead := passesMerge_literalSegments (A := A) (C := C) hl
      fun text h => hlast text (List.mem_append_left _ h)
    have hrest :=
      ih base _ fun text h => hlast text (List.mem_append_right _ (List.mem_append_right _ h))
    refine hlead.append (PassesMerge.append ?_ hrest)
    cases hp : (Expression.parse raw).pattern with
    | none =>
      rw [ofSegments_placeholder hp, ofSegments_nil]
      exact passesMerge_placeholder hr hp _ hA
    | some pattern =>
      rw [ofSegments_conditional hp, ofSegments_nil] at hlast ⊢
      refine passesMerge_conditional hr hp _ ?_
      rw [ofTextAt_eq] at hlast ⊢
      refine ihp pattern hp _ 0 fun text h => hlast text ?_
      exact List.mem_append_right _ (List.mem_append_left _ (List.mem_append_left _ h))

end Template

/-! ### Processing with arguments and a configuration -/

/-- Without a limit, processing expands what the expansion against the arguments wrote. -/
theorem result_processBoth (t : Text) (c : Option Configuration) (args : List Value) :
    ((Processor.mk none).processBoth t c args).result =
      .ok ((Template.ofText ((Template.ofText t).output (.arguments args))).output
        (.configuration c)) := by
  rw [Processor.processBoth, Processor.processArguments, Processor.expand,
    Template.expandText_total]
  show ((Processor.mk none).processConfiguration _ c).result = _
  rw [Processor.processConfiguration, Processor.expand, Template.expandText_total]
  rfl

theorem Resolver.exists_of_arguments_eq_some {args : List Value} {name text : Text}
    (h : Resolver.arguments args name = some text) : ∃ v ∈ args, v.toText .commaSpace = text := by
  unfold Resolver.arguments at h
  split at h
  · obtain ⟨v, hv, rfl⟩ := Option.map_eq_some_iff.1 h
    exact ⟨v, List.mem_of_getElem? hv, rfl⟩
  · cases h

/-- **Two passes are one layered pass**, if no argument has a `$` in its text and no literal of the
template, or of a pattern in it, ends with `$`. -/
theorem processBoth_eq_layered {t : Text} {c : Option Configuration} {args : List Value}
    (hargs : ∀ v ∈ args, '$' ∉ v.toText .commaSpace)
    (hlast : ∀ text ∈ (Template.ofText t).literals, text.getLast? ≠ some '$') :
    ((Processor.mk none).processBoth t c args).result =
      .ok ((Template.ofText t).layered (.arguments args) (.configuration c)) := by
  have hA : ∀ name text, Resolver.arguments args name = some text → '$' ∉ text := by
    intro name text h
    obtain ⟨v, hv, rfl⟩ := Resolver.exists_of_arguments_eq_some h
    exact hargs v hv
  rw [result_processBoth]
  rw [Template.ofText_eq_ofSegments] at hlast
  rw [Template.ofText_eq_ofSegments t]
  exact congrArg Except.ok (Template.passesMerge hA t 0 0 hlast).output_eq

/-- The argument takes a pattern with a configuration key inside, and a key takes a pattern whose
argument nobody asks for any more. -/
theorem processBoth_eq_layered_nested :
    (∀ v ∈ [Value.text ['a']], '$' ∉ v.toText .commaSpace) ∧
      (∀ text ∈ (Template.ofText ['{', '$', '{', '0', '?', '-', '$', '{', 'k', '}', '}',
          '$', '{', 'k', '?', '$', '{', '0', '}', '}']).literals, text.getLast? ≠ some '$') ∧
      ((Processor.mk none).processBoth ['{', '$', '{', '0', '?', '-', '$', '{', 'k', '}', '}',
          '$', '{', 'k', '?', '$', '{', '0', '}', '}']
        (some (Configuration.empty.insert ['k'] (some ['v']))) [.text ['a']]).result =
        .ok ['{', '-', 'v', '$', '{', '0', '}'] := by
  have hargs : ∀ v ∈ [Value.text ['a']], '$' ∉ v.toText .commaSpace := by decide +kernel
  have hlast : ∀ text ∈ (Template.ofText ['{', '$', '{', '0', '?', '-', '$', '{', 'k', '}', '}',
      '$', '{', 'k', '?', '$', '{', '0', '}', '}']).literals, text.getLast? ≠ some '$' := by
    decide +kernel
  exact ⟨hargs, hlast, (processBoth_eq_layered hargs hlast).trans (by decide +kernel)⟩

end Interpolation

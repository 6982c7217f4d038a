import Interpolation.Processor
import Interpolation.Proofs.Joins
import Interpolation.Proofs.Unterminated

/-!
# Interpolation.Proofs.TwoPasses

What a check for **two passes** without findings promises about the passes.

The argument pass writes its text in pieces: literals of the template, texts of arguments, and
placeholders that it leaves to the configuration (`Template.pieces`). A check without findings has
looked at each piece by itself, and each one expands without loss (`Template.PassesOn`). The
configuration pass reads the pieces together, so the promise holds exactly for the placeholders that
no piece has by itself: those that open where two pieces meet (`passes_lossless_iff`). In `$${0}`
the argument `{k}` makes one.
-/

namespace Interpolation

/-! ### Expanding without loss -/

/-- Expanding the tree meets no unterminated placeholder, and every name that is asked
for is answered. -/
def Template.Lossless (r : Resolver) (t : Template) : Prop :=
  (∀ span, .dropped span ∉ t.events r) ∧ ∀ name ∈ t.names r, (r name).isSome

/-- Expanding the text meets no unterminated placeholder, and every name that is asked
for is answered. -/
def Lossless (r : Resolver) (t : Text) : Prop :=
  (∀ span, .dropped span ∉ (expandText r.total none t).events) ∧
    ∀ name ∈ (expandText r.total none t).names, (r name).isSome

/-- The name of the expression is answered, and so is everything in its pattern if that is taken. -/
def Expression.Expands (r : Resolver) (e : Expression) : Prop :=
  ∃ replacement, r e.name = some replacement ∧
    ∀ pattern, e.pattern = some pattern → e.takesPattern replacement → Lossless r pattern

theorem lossless_ofText {r : Resolver} {t : Text} :
    Lossless r t ↔ (Template.ofText t).Lossless r := by
  unfold Lossless
  rw [Template.expandText_total]
  exact Iff.rfl

namespace Template

variable {r : Resolver}

theorem lossless_append {t t' : Template} :
    (t.append t').Lossless r ↔ t.Lossless r ∧ t'.Lossless r := by
  unfold Lossless
  rw [events_append, names_append]
  simp only [List.mem_append, not_or, or_imp, forall_and]
  exact and_and_and_comm

theorem lossless_ofSegments_literalSegments (base : Nat) (t : Text) :
    (ofSegments base (literalSegments t)).Lossless r := by
  unfold Lossless
  rw [events_ofSegments_literalSegments, names_ofSegments_literalSegments]
  exact ⟨fun _ h => (List.not_mem_nil h).elim, fun _ h => (List.not_mem_nil h).elim⟩

theorem not_lossless_unterminated (span : Span) (rest : Template) :
    ¬ (unterminated span rest).Lossless r :=
  fun h => h.1 span List.mem_cons_self

theorem lossless_placeholder {e : Expression} {span : Span} {rest : Template} :
    (placeholder e span rest).Lossless r ↔ (r e.name).isSome ∧ rest.Lossless r := by
  unfold Lossless
  rw [names_placeholder, events]
  cases hr : r e.name with
  | none => simp [hr]
  | some replacement => simp [hr]

theorem lossless_conditional {e : Expression} {span : Span} {pattern rest : Template} :
    (conditional e span pattern rest).Lossless r ↔
      (∃ replacement, r e.name = some replacement ∧
        (e.takesPattern replacement → pattern.Lossless r)) ∧
        rest.Lossless r := by
  unfold Lossless
  rw [names_conditional, events]
  cases hr : r e.name with
  | none => simp [hr]
  | some replacement =>
    by_cases htaken : e.takesPattern replacement
    · simp only [htaken, if_true, List.mem_cons, List.mem_append, reduceCtorEq, false_or,
        not_or, or_imp, forall_and, forall_eq, hr, Option.isSome_some, true_and, Option.some.injEq,
        exists_eq_left', forall_const]
      exact and_and_and_comm
    · simp [htaken, hr]

/-- An expansion is lossless if every placeholder expands, wherever the text stands. -/
theorem lossless_ofSegments_iff (r : Resolver) (t : Text) (base start : Nat) :
    (ofSegments base (segmentsFrom start t)).Lossless r ↔
      AllPlaceholders (Expression.Expands r) t := by
  induction t using Text.templateInduction generalizing base start with
  | plain t ht =>
    rw [segmentsFrom_of_not_hasOpening ht]
    exact ⟨fun _ => .plain ht, fun _ => lossless_ofSegments_literalSegments base t⟩
  | unclosed lead body hl hb =>
    rw [segmentsFrom_unclosed hl hb, ofSegments_append, lossless_append, ofSegments_unterminated]
    exact ⟨fun h => (not_lossless_unterminated _ _ h.2).elim,
      fun h => (not_allPlaceholders_unclosed hl hb h).elim⟩
  | closed lead raw rest hl hr ihp ih =>
    rw [segmentsFrom_closed hl hr, ofSegments_append, lossless_append,
      allPlaceholders_closed_iff hl hr,
      and_iff_right (lossless_ofSegments_literalSegments base lead)]
    cases hp : (Expression.parse raw).pattern with
    | none =>
      rw [ofSegments_placeholder hp, lossless_placeholder, ih]
      refine and_congr_left fun _ => ?_
      simp [Expression.Expands, hp, Option.isSome_iff_exists]
    | some pattern =>
      rw [ofSegments_conditional hp, lossless_conditional, ih, ofTextAt_eq, segments,
        ihp pattern hp]
      refine and_congr_left fun _ => exists_congr fun replacement => and_congr_right fun _ => ?_
      -- The pattern is lossless here if it is so by itself.
      have hpattern : Interpolation.Lossless r pattern ↔
          AllPlaceholders (Expression.Expands r) pattern := by
        rw [lossless_ofText, ofText, ofTextAt_eq, segments, ihp pattern hp]
      rw [← hpattern]
      simp [hp]

end Template

/-- An expansion is lossless exactly if every placeholder expands. -/
theorem lossless_iff {r : Resolver} {t : Text} :
    Lossless r t ↔ AllPlaceholders (Expression.Expands r) t := by
  rw [lossless_ofText, Template.ofText, Template.ofTextAt_eq, segments]
  exact Template.lossless_ofSegments_iff r t 0 0

/-! ### A check without findings -/

namespace Template

variable {r : Resolver}

theorem eq_some_of_nameFindings_eq_nil {e : Expression} {span : Span}
    (h : nameFindings r e span = []) : ∃ replacement, r e.name = some replacement := by
  unfold nameFindings at h
  split at h
  · cases h
  · split at h
    · cases h
    · rename_i hsome
      cases hr : r e.name with
      | none => simp [hr] at hsome
      | some replacement => exact ⟨replacement, rfl⟩

/-- A template without findings is expanded without loss. -/
theorem allPlaceholders_of_findings_eq_nil {t : Text} {base start : Nat}
    (h : (ofSegments base (segmentsFrom start t)).findings r = []) :
    AllPlaceholders (Expression.Expands r) t := by
  induction t using Text.templateInduction generalizing base start with
  | plain t ht => exact .plain ht
  | unclosed lead body hl hb =>
    rw [segmentsFrom_unclosed hl hb, ofSegments_append, findings_append,
      ofSegments_unterminated] at h
    cases (List.append_eq_nil_iff.1 h).2
  | closed lead raw rest hl hr ihp ih =>
    rw [segmentsFrom_closed hl hr, ofSegments_append, findings_append] at h
    have hplaceholder := (List.append_eq_nil_iff.1 h).2
    cases hp : (Expression.parse raw).pattern with
    | none =>
      rw [ofSegments_placeholder hp, findings] at hplaceholder
      obtain ⟨hname, hrest⟩ := List.append_eq_nil_iff.1 hplaceholder
      obtain ⟨replacement, hr'⟩ := eq_some_of_nameFindings_eq_nil hname
      exact .closed hl hr ⟨replacement, hr', by simp [hp]⟩ (ih hrest)
    | some pattern =>
      rw [ofSegments_conditional hp, findings] at hplaceholder
      obtain ⟨hboth, hrest⟩ := List.append_eq_nil_iff.1 hplaceholder
      obtain ⟨hname, hpattern⟩ := List.append_eq_nil_iff.1 hboth
      obtain ⟨replacement, hr'⟩ := eq_some_of_nameFindings_eq_nil hname
      rw [ofTextAt_eq, segments] at hpattern
      have hlossless : Interpolation.Lossless r pattern := lossless_iff.2 (ihp pattern hp hpattern)
      refine .closed hl hr ⟨replacement, hr', fun pattern' hp' _ => ?_⟩ (ih hrest)
      rw [hp] at hp'
      obtain rfl := Option.some.inj hp'
      exact hlossless

end Template

/-! ### The pieces of the argument pass -/

namespace Template

/-- The pieces that an expansion writes one behind the other. -/
def pieces (r : Resolver) : Template → List Text
  | .done => []
  | .literal text rest => text :: rest.pieces r
  | .placeholder e _ rest =>
    (match r e.name with
      | none => e.written
      | some replacement => replacement) :: rest.pieces r
  | .conditional e _ pattern rest =>
    (match r e.name with
      | none => [e.written]
      | some replacement =>
        if e.takesPattern replacement then pattern.pieces r else []) ++ rest.pieces r
  | .unterminated _ rest => rest.pieces r

theorem flatten_pieces (r : Resolver) (t : Template) : (t.pieces r).flatten = t.output r := by
  induction t with
  | done => rfl
  | literal text rest ih => rw [pieces, List.flatten_cons, ih, output]
  | placeholder e span rest ih =>
    cases hr : r e.name with
    | none => simp only [pieces, output, hr, List.flatten_cons, ih]
    | some replacement => simp only [pieces, output, hr, List.flatten_cons, ih]
  | conditional e span pattern rest ihp ih =>
    rw [pieces, output, List.flatten_append, ih]
    cases hr : r e.name with
    | none => simp only [List.flatten_singleton]
    | some replacement =>
      by_cases htaken : e.takesPattern replacement
      · simp only [htaken, if_true, ihp]
      · simp only [htaken, Bool.false_eq_true, if_false, List.flatten_nil]
  | unterminated span rest ih => rw [pieces, ih, output]

theorem pieces_append (r : Resolver) (t t' : Template) :
    (t.append t').pieces r = t.pieces r ++ t'.pieces r := by
  induction t with
  | done => rfl
  | literal text rest ih => simp only [append, pieces, ih, List.cons_append]
  | placeholder e span rest ih => simp only [append, pieces, ih, List.cons_append]
  | conditional e span pattern rest _ ih => simp only [append, pieces, ih, List.append_assoc]
  | unterminated span rest ih => simp only [append, pieces, ih]

theorem findingsInPasses_append (A C : Resolver) (t t' : Template) :
    (t.append t').findingsInPasses A C = t.findingsInPasses A C ++ t'.findingsInPasses A C := by
  induction t with
  | done => rfl
  | literal text rest ih => simp only [append, findingsInPasses, ih]
  | placeholder e span rest ih => simp only [append, findingsInPasses, ih, List.append_assoc]
  | conditional e span pattern rest _ ih =>
    simp only [append, findingsInPasses, ih, List.append_assoc]
  | unterminated span rest ih => simp only [append, findingsInPasses, ih, List.cons_append]

/-- What the argument pass makes of a tree: nothing is dropped, and every piece is expanded by the
configuration pass without loss. -/
structure PassesOn (A C : Resolver) (t : Template) : Prop where
  /-- The argument pass drops nothing. -/
  not_dropped : ∀ span, .dropped span ∉ t.events A
  /-- The pieces expand without loss, each one by itself. -/
  pieces : ∀ p ∈ t.pieces A, AllPlaceholders (Expression.Expands C) p

variable {A C : Resolver}

theorem PassesOn.append {t t' : Template} (h : t.PassesOn A C) (h' : t'.PassesOn A C) :
    (t.append t').PassesOn A C := by
  constructor
  · intro span hs
    rw [events_append] at hs
    rcases List.mem_append.1 hs with hs | hs
    · exact h.not_dropped span hs
    · exact h'.not_dropped span hs
  · intro p hp
    rw [pieces_append] at hp
    rcases List.mem_append.1 hp with hp | hp
    · exact h.pieces p hp
    · exact h'.pieces p hp

theorem passesOn_literalSegments {lead : Text} (hl : ¬ HasOpening lead) (base : Nat) :
    (ofSegments base (literalSegments lead)).PassesOn A C := by
  refine ⟨by simp [events_ofSegments_literalSegments], fun p hp => ?_⟩
  unfold literalSegments at hp
  split at hp
  · rw [ofSegments_nil] at hp
    cases hp
  · rw [ofSegments_literal, ofSegments_nil] at hp
    rw [List.mem_singleton.1 hp]
    exact .plain hl

/-- A placeholder whose name was asked for, before the rest of the tree. -/
theorem PassesOn.of_asked {t rest : Template} {name : Text} {events : List Event}
    {pieces : List Text} (hrest : rest.PassesOn A C)
    (hevents : t.events A = .asked name :: (events ++ rest.events A))
    (hpieces : t.pieces A = pieces ++ rest.pieces A) (hnot : ∀ span, .dropped span ∉ events)
    (hall : ∀ p ∈ pieces, AllPlaceholders (Expression.Expands C) p) : t.PassesOn A C := by
  constructor
  · intro span hs
    rw [hevents] at hs
    rcases List.mem_cons.1 hs with hs | hs
    · cases hs
    · rcases List.mem_append.1 hs with hs | hs
      · exact hnot span hs
      · exact hrest.not_dropped span hs
  · intro p hp
    rw [hpieces] at hp
    rcases List.mem_append.1 hp with hp | hp
    · exact hall p hp
    · exact hrest.pieces p hp

/-- A placeholder that the arguments leave to the configuration, and that the configuration expands
without loss. -/
theorem PassesOn.of_kept {t rest : Template} {raw : Text} (hrest : rest.PassesOn A C)
    (hr : BraceBalanced raw) (hexpands : (Expression.parse raw).Expands C)
    (hevents : t.events A =
      .asked (Expression.parse raw).name ::
        ([.kept (Expression.parse raw).name] ++ rest.events A))
    (hpieces : t.pieces A = [(Expression.parse raw).written] ++ rest.pieces A) :
    t.PassesOn A C := by
  refine hrest.of_asked hevents hpieces (by simp) ?_
  intro p hp
  rw [List.mem_singleton.1 hp]
  exact allPlaceholders_written hr hexpands

theorem passesOn_placeholder {raw : Text} (hr : BraceBalanced raw)
    (hpattern : (Expression.parse raw).pattern = none) {span : Span} {rest : Template}
    (h : (placeholder (Expression.parse raw) span rest).findingsInPasses A C = [])
    (hrest : rest.PassesOn A C) : (placeholder (Expression.parse raw) span rest).PassesOn A C := by
  rw [findingsInPasses] at h
  have hfound := (List.append_eq_nil_iff.1 h).1
  split at hfound
  · cases hfound
  cases ha : A (Expression.parse raw).name with
  | none =>
    rw [ha] at hfound
    obtain ⟨replacement, hc⟩ := eq_some_of_nameFindings_eq_nil hfound
    have hexpands : (Expression.parse raw).Expands C := ⟨replacement, hc, by simp [hpattern]⟩
    exact hrest.of_kept hr hexpands (by simp only [events, ha])
      (by simp only [pieces, ha, List.singleton_append])
  | some text =>
    rw [ha] at hfound
    have hfound' := List.map_eq_nil_iff.1 hfound
    rw [ofText, ofTextAt_eq] at hfound'
    have hevents : (placeholder (Expression.parse raw) span rest).events A =
        .asked (Expression.parse raw).name :: ([] ++ rest.events A) := by
      simp only [events, ha]
    have hpieces : (placeholder (Expression.parse raw) span rest).pieces A =
        [text] ++ rest.pieces A := by
      simp only [pieces, ha, List.singleton_append]
    refine hrest.of_asked hevents hpieces (by simp) ?_
    intro p hp
    rw [List.mem_singleton.1 hp]
    exact allPlaceholders_of_findings_eq_nil hfound'

/-- A name that the resolver answers, before a pattern in which a check finds nothing. -/
theorem expands_of_pattern_findings_eq_nil {e : Expression} {pattern replacement : Text}
    (hpattern : e.pattern = some pattern) (hname : C e.name = some replacement) {base : Nat}
    (h : (ofTextAt base pattern).findings C = []) : e.Expands C := by
  refine ⟨replacement, hname, fun pattern' hp' _ => ?_⟩
  rw [hpattern] at hp'
  obtain rfl := Option.some.inj hp'
  rw [ofTextAt_eq] at h
  exact lossless_iff.2 (allPlaceholders_of_findings_eq_nil h)

/-- A pattern is entered, or it is not, and then nothing of the placeholder is written. -/
theorem passesOn_conditional_of_answered {e : Expression} {pattern rest : Template} {span : Span}
    {text : Text} (hname : A e.name = some text) (hpattern : pattern.PassesOn A C)
    (hrest : rest.PassesOn A C) : (conditional e span pattern rest).PassesOn A C := by
  by_cases htaken : e.takesPattern text
  · have hevents : (conditional e span pattern rest).events A =
        .asked e.name :: (pattern.events A ++ rest.events A) := by
      simp only [events, hname, htaken, if_true]
    have hpieces : (conditional e span pattern rest).pieces A =
        pattern.pieces A ++ rest.pieces A := by
      simp only [pieces, hname, htaken, if_true]
    exact hrest.of_asked hevents hpieces hpattern.not_dropped hpattern.pieces
  · have hevents : (conditional e span pattern rest).events A =
        .asked e.name :: ([] ++ rest.events A) := by
      simp only [events, hname, htaken, Bool.false_eq_true, if_false]
    have hpieces : (conditional e span pattern rest).pieces A = [] ++ rest.pieces A := by
      simp only [pieces, hname, htaken, Bool.false_eq_true, if_false]
    exact hrest.of_asked hevents hpieces (by simp) (by simp)

theorem passesOn_conditional {raw pattern : Text} (hr : BraceBalanced raw)
    (hpattern : (Expression.parse raw).pattern = some pattern) {base : Nat} {span : Span}
    {rest : Template}
    (h : (conditional (Expression.parse raw) span (ofTextAt base pattern) rest).findingsInPasses
      A C = [])
    (hinner : (ofTextAt base pattern).findingsInPasses A C = [] →
      (ofTextAt base pattern).PassesOn A C)
    (hrest : rest.PassesOn A C) :
    (conditional (Expression.parse raw) span (ofTextAt base pattern) rest).PassesOn A C := by
  rw [findingsInPasses] at h
  have hfound := (List.append_eq_nil_iff.1 h).1
  split at hfound
  · cases hfound
  cases ha : A (Expression.parse raw).name with
  | none =>
    rw [ha] at hfound
    cases hc : C (Expression.parse raw).name with
    | none =>
      rw [hc] at hfound
      cases hfound
    | some replacement =>
      -- The placeholder is left with its pattern, and the pattern was checked against
      -- the configuration.
      rw [hc] at hfound
      have hexpands := expands_of_pattern_findings_eq_nil hpattern hc hfound
      exact hrest.of_kept hr hexpands (by simp only [events, ha]) (by simp only [pieces, ha])
  | some text =>
    rw [ha] at hfound
    exact passesOn_conditional_of_answered ha (hinner hfound) hrest

/-- The argument pass over a template without findings drops nothing and writes pieces
that expand without loss. -/
theorem passesOn_of_findingsInPasses_eq_nil {t : Text} {base start : Nat}
    (h : (ofSegments base (segmentsFrom start t)).findingsInPasses A C = []) :
    (ofSegments base (segmentsFrom start t)).PassesOn A C := by
  induction t using Text.templateInduction generalizing base start with
  | plain t ht =>
    rw [segmentsFrom_of_not_hasOpening ht]
    exact passesOn_literalSegments ht base
  | unclosed lead body hl hb =>
    rw [segmentsFrom_unclosed hl hb, ofSegments_append, findingsInPasses_append,
      ofSegments_unterminated] at h
    cases (List.append_eq_nil_iff.1 h).2
  | closed lead raw rest hl hr ihp ih =>
    rw [segmentsFrom_closed hl hr, ofSegments_append] at h ⊢
    rw [findingsInPasses_append] at h
    have hplaceholder := (List.append_eq_nil_iff.1 h).2
    refine (passesOn_literalSegments hl base).append ?_
    cases hp : (Expression.parse raw).pattern with
    | none =>
      rw [ofSegments_placeholder hp] at hplaceholder ⊢
      have hrest := hplaceholder
      rw [findingsInPasses] at hrest
      exact passesOn_placeholder hr hp hplaceholder (ih (List.append_eq_nil_iff.1 hrest).2)
    | some pattern =>
      rw [ofSegments_conditional hp] at hplaceholder ⊢
      have hrest := hplaceholder
      rw [findingsInPasses] at hrest
      refine passesOn_conditional hr hp hplaceholder (fun hinner => ?_)
        (ih (List.append_eq_nil_iff.1 hrest).2)
      rw [ofTextAt_eq] at hinner ⊢
      exact ihp pattern hp hinner

end Template

/-! ### Both passes -/

/-- Processing without a limit loses nothing: neither pass meets an unterminated placeholder, and
the configuration answers every name that its pass asks for. -/
structure PassesLossless (t : Text) (c : Option Configuration) (args : List Value) : Prop where
  /-- No pass drops anything. -/
  not_dropped : ∀ span, .dropped span ∉ ((Processor.mk none).processBoth t c args).events
  /-- What the argument pass wrote is expanded with an answer to every name. -/
  answered : ∀ out, ((Processor.mk none).processArguments t args).result = .ok out →
    ∀ name ∈ ((Processor.mk none).processConfiguration out c).names,
      (Resolver.configuration c name).isSome

theorem processArguments_eq (t : Text) (args : List Value) :
    (Processor.mk none).processArguments t args =
      ⟨(Template.ofText t).events (.arguments args),
        .ok ((Template.ofText t).pieces (.arguments args)).flatten⟩ := by
  rw [Processor.processArguments, Processor.expand, Template.expandText_total,
    Template.flatten_pieces]
  rfl

/-- When the argument pass drops nothing, the configuration pass over its text decides. -/
theorem passesLossless_iff_lossless {t : Text} {c : Option Configuration} {args : List Value}
    (hargs : ∀ span, .dropped span ∉ (Template.ofText t).events (.arguments args)) :
    PassesLossless t c args ↔
      Lossless (.configuration c) ((Template.ofText t).pieces (.arguments args)).flatten := by
  have hevents : ((Processor.mk none).processBoth t c args).events =
      (Template.ofText t).events (.arguments args) ++
        (expandText (Resolver.configuration c).total none
          ((Template.ofText t).pieces (.arguments args)).flatten).events := by
    rw [Processor.processBoth, processArguments_eq]
    rfl
  constructor
  · intro h
    constructor
    · intro span hs
      refine h.not_dropped span ?_
      rw [hevents]
      exact List.mem_append_right _ hs
    · intro name hname
      exact h.answered _ (by rw [processArguments_eq]) name hname
  · intro h
    constructor
    · intro span hs
      rw [hevents] at hs
      rcases List.mem_append.1 hs with hs | hs
      · exact hargs span hs
      · exact h.1 span hs
    · intro out hout name hname
      rw [processArguments_eq] at hout
      obtain rfl := Except.ok.inj hout
      exact h.2 name hname

/-- **A check for two passes without findings decides all but the joins.** The argument pass
succeeds. Both passes lose nothing exactly if every placeholder of its text that opens where two of
its pieces meet is closed and expands. All others do. -/
theorem passes_lossless_iff {t : Text} {c : Option Configuration} {args : List Value}
    (h : checkBoth t c args = []) :
    let pieces := (Template.ofText t).pieces (.arguments args)
    ((Processor.mk none).processArguments t args).result = .ok pieces.flatten ∧
      (PassesLossless t c args ↔
        ∀ s ∈ segments pieces.flatten, s.OpensAtJoin pieces →
          s.Satisfies (Expression.Expands (.configuration c))) := by
  intro pieces
  have hpasses : (Template.ofText t).PassesOn (.arguments args) (.configuration c) := by
    unfold checkBoth Template.ofText at h
    rw [Template.ofTextAt_eq] at h
    unfold Template.ofText
    rw [Template.ofTextAt_eq]
    exact Template.passesOn_of_findingsInPasses_eq_nil h
  constructor
  · rw [processArguments_eq]
  · rw [passesLossless_iff_lossless hpasses.not_dropped, lossless_iff]
    exact allPlaceholders_flatten_iff hpasses.pieces

/-- The text `$` and the argument `{k}` make a placeholder that no piece has, and the
configuration answers it. -/
theorem passes_lossless_of_answered_join :
    checkBoth ['$', '$', '{', '0', '}'] (some (Configuration.empty.insert ['k'] (some ['v'])))
        [.text ['{', 'k', '}']] = [] ∧
      PassesLossless ['$', '$', '{', '0', '}']
        (some (Configuration.empty.insert ['k'] (some ['v']))) [.text ['{', 'k', '}']] := by
  refine ⟨by decide +kernel, (passes_lossless_iff (by decide +kernel)).2.2 ?_⟩
  intro s hs _
  have hsegments : segments ((Template.ofText ['$', '$', '{', '0', '}']).pieces
      (.arguments [.text ['{', 'k', '}']])).flatten =
        [.placeholder (Expression.parse ['k']) ⟨0, 4⟩] := by
    decide +kernel
  rw [hsegments] at hs
  rw [List.mem_singleton.1 hs]
  have hpattern : (Expression.parse ['k']).pattern = none := by decide
  refine ⟨['v'], by decide +kernel, fun pattern hp => ?_⟩
  rw [hpattern] at hp
  cases hp

/-- The text `$` and the argument `{` open a placeholder that is never closed. The configuration
pass drops it with everything behind it, and the check finds nothing. -/
theorem not_passes_lossless_of_unclosed_join :
    checkBoth ['$', '$', '{', '0', '}', '!'] none [.text ['{']] = [] ∧
      ((Processor.mk none).processBoth ['$', '$', '{', '0', '}', '!'] none [.text ['{']]).result =
        .ok [] ∧
      ¬ PassesLossless ['$', '$', '{', '0', '}', '!'] none [.text ['{']] := by
  refine ⟨by decide +kernel, by decide +kernel, fun h => ?_⟩
  have hdropped : Event.dropped ⟨0, 3⟩ ∈
      ((Processor.mk none).processBoth ['$', '$', '{', '0', '}', '!'] none
        [.text ['{']]).events := by
    decide +kernel
  exact h.not_dropped ⟨0, 3⟩ hdropped

end Interpolation

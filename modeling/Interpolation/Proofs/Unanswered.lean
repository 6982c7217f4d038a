import Interpolation.Processor
import Interpolation.Proofs.Unterminated

/-!
# Interpolation.Proofs.Unanswered

Templates that **nobody answers**.

If a resolver has no answer to any name of a template outside of patterns, the template is written
back as it stands, up to an unterminated placeholder. No pattern is taken, so no limit matters. What
is written back is read again as the same template, and so it is written back once more
(`written_back_of_unanswered`).

Without arguments the argument pass is such an expansion. Processing with arguments and a
configuration is then processing with the configuration, and the check for both is the check against
the configuration (`no_arguments_leave_configuration`).
-/

namespace Interpolation

/-- The name of the placeholder that the segment is. -/
def Segment.name? : Segment → Option Text
  | .placeholder e _ => some e.name
  | _ => none

/-- What happens at the segment if nobody answers. -/
def Segment.unanswered : Segment → List Event
  | .literal _ => []
  | .placeholder e _ => [.asked e.name, .kept e.name]
  | .unterminated span => [.dropped span]

/-- The names asked for are those of the segments. -/
theorem names_flatMap_unanswered (l : List Segment) :
    (l.flatMap Segment.unanswered).filterMap Event.name? = l.filterMap Segment.name? := by
  induction l with
  | nil => rfl
  | cons s l ih =>
    cases s with
    | literal text => exact ih
    | placeholder e span => exact congrArg (e.name :: ·) ih
    | unterminated span => exact ih

namespace Template

variable {r : Resolver}

/-! ### Expanding -/

/-- The names of the placeholders that stand in no pattern. -/
def outerNames : Template → List Text
  | .done => []
  | .literal _ rest => rest.outerNames
  | .placeholder e _ rest => e.name :: rest.outerNames
  | .conditional e _ _ rest => e.name :: rest.outerNames
  | .unterminated _ rest => rest.outerNames

theorem outerNames_append (t t' : Template) :
    (t.append t').outerNames = t.outerNames ++ t'.outerNames := by
  induction t with
  | done => rfl
  | literal text rest ih => simp only [append, outerNames, ih]
  | placeholder e span rest ih => simp only [append, outerNames, ih, List.cons_append]
  | conditional e span pattern rest _ ih => simp only [append, outerNames, ih, List.cons_append]
  | unterminated span rest ih => simp only [append, outerNames, ih]

theorem outerNames_ofSegments_placeholder (base : Nat) (e : Expression) (span : Span)
    (l : List Segment) :
    (ofSegments base (.placeholder e span :: l)).outerNames =
      e.name :: (ofSegments base l).outerNames := by
  cases h : e.pattern with
  | none => rw [ofSegments_placeholder h, outerNames]
  | some pattern => rw [ofSegments_conditional h, outerNames]

theorem outerNames_ofSegments (base : Nat) (l : List Segment) :
    (ofSegments base l).outerNames = l.filterMap Segment.name? := by
  induction l with
  | nil => rw [ofSegments_nil, outerNames, List.filterMap_nil]
  | cons s l ih =>
    cases s with
    | literal text => rw [ofSegments_literal, outerNames, ih, List.filterMap_cons_none rfl]
    | placeholder e span =>
      rw [outerNames_ofSegments_placeholder, ih]
      rfl
    | unterminated span =>
      rw [ofSegments_unterminated, outerNames, ih, List.filterMap_cons_none rfl]

theorem outerNames_ofText (t : Text) :
    (ofText t).outerNames = (segments t).filterMap Segment.name? := by
  rw [ofText_eq_ofSegments, outerNames_ofSegments, segments]

/-- Without an answer the limit is never looked at. -/
theorem expandAt_of_unanswered {t : Template} (h : ∀ name ∈ t.outerNames, r name = none)
    (limit : Option Nat) (depth : Nat) :
    t.expandAt r.total limit depth = ⟨t.events r, .ok (t.output r)⟩ := by
  induction t with
  | done => rfl
  | literal text rest ih =>
    rw [expandAt, ih h]
    rfl
  | placeholder e span rest ih =>
    obtain ⟨hname, hrest⟩ := List.forall_mem_cons.1 h
    rw [expandAt, ih hrest, events, output, Expression.ask, Resolver.total, hname]
    rfl
  | conditional e span pattern rest _ ih =>
    obtain ⟨hname, hrest⟩ := List.forall_mem_cons.1 h
    rw [expandAt, ih hrest, events, output, Expression.ask, Resolver.total, hname]
    rfl
  | unterminated span rest ih =>
    rw [expandAt, ih h]
    rfl

theorem events_ofSegments_of_eq_none {e : Expression} (h : r e.name = none)
    (base : Nat) (span : Span) (l : List Segment) :
    (ofSegments base (.placeholder e span :: l)).events r =
      .asked e.name :: .kept e.name :: (ofSegments base l).events r := by
  cases hp : e.pattern with
  | none => simp only [ofSegments_placeholder hp, events, h, List.singleton_append]
  | some pattern => simp only [ofSegments_conditional hp, events, h, List.singleton_append]

/-- Without answers each segment is met once, and none inside a pattern. -/
theorem events_ofSegments_of_unanswered {l : List Segment}
    (h : ∀ name ∈ l.filterMap Segment.name?, r name = none) :
    (ofSegments 0 l).events r = l.flatMap Segment.unanswered := by
  induction l with
  | nil => rw [ofSegments_nil, events, List.flatMap_nil]
  | cons s l ih =>
    rw [List.flatMap_cons]
    cases s with
    | literal text =>
      rw [ofSegments_literal, events, ih h, Segment.unanswered, List.nil_append]
    | placeholder e span =>
      obtain ⟨hname, hrest⟩ := List.forall_mem_cons.1 h
      rw [events_ofSegments_of_eq_none hname, ih hrest, Segment.unanswered]
      rfl
    | unterminated span =>
      rw [ofSegments_unterminated, events, ih h, Segment.unanswered]
      rfl

/-- A placeholder without an answer is written back, with its pattern if it has one. -/
theorem output_ofSegments_of_eq_none {e : Expression} (h : r e.name = none)
    (base : Nat) (span : Span) (l : List Segment) :
    (ofSegments base (.placeholder e span :: l)).output r =
      e.written ++ (ofSegments base l).output r := by
  cases hp : e.pattern with
  | none => simp only [ofSegments_placeholder hp, output, h]
  | some pattern => simp only [ofSegments_conditional hp, output, h]

/-- A template without an unterminated segment is written back as it stands. -/
theorem output_of_unanswered {t : Text} {base start : Nat}
    (hall : ∀ s ∈ segmentsFrom start t, ¬ s.isUnterminated)
    (h : ∀ name ∈ (ofSegments base (segmentsFrom start t)).outerNames, r name = none) :
    (ofSegments base (segmentsFrom start t)).output r = t := by
  induction t using Text.segmentInduction generalizing start with
  | plain t ht => rw [segmentsFrom_of_not_hasOpening ht, output_ofSegments_literalSegments]
  | unclosed lead body hl hb =>
    exact absurd rfl (hall _ ((mem_segmentsFrom_unclosed hl hb).2 (.inr rfl)))
  | closed lead raw rest hl hr ih =>
    have hcomplete := fun s hs => hall s ((mem_segmentsFrom_closed hl hr).2 (.inr (.inr hs)))
    rw [segmentsFrom_closed hl hr, ofSegments_append, outerNames_append,
      outerNames_ofSegments_placeholder] at h
    obtain ⟨hname, hrest⟩ := List.forall_mem_cons.1 (List.forall_mem_append.1 h).2
    rw [segmentsFrom_closed hl hr, ofSegments_append, output_append,
      output_ofSegments_literalSegments, output_ofSegments_of_eq_none hname, ih hcomplete hrest]
    simp

end Template

/-- `before` is all of `t`, or the text up to its unterminated placeholder if there is one. -/
def UpToUnterminated (t before : Text) : Prop :=
  ((∀ s ∈ segments t, ¬ s.isUnterminated) ∧ before = t) ∨ ∃ span, EndsUnterminated t before span

theorem exists_upToUnterminated (t : Text) : ∃ before, UpToUnterminated t before := by
  rcases complete_or_endsUnterminated t with hall | ⟨before, span, hend⟩
  · exact ⟨t, .inl ⟨hall, rfl⟩⟩
  · exact ⟨before, .inr ⟨span, hend⟩⟩

namespace UpToUnterminated

variable {t before : Text}

theorem complete (h : UpToUnterminated t before) : ∀ s ∈ segments before, ¬ s.isUnterminated := by
  rcases h with ⟨hall, rfl⟩ | ⟨span, hend⟩
  · exact hall
  · exact hend.complete

theorem names_eq (h : UpToUnterminated t before) :
    (segments before).filterMap Segment.name? = (segments t).filterMap Segment.name? := by
  rcases h with ⟨-, rfl⟩ | ⟨span, hend⟩
  · rfl
  · rw [hend.segments_eq, List.filterMap_append]
    exact (List.append_nil _).symm

theorem sameAnswers (h : UpToUnterminated t before) {ε : Type} (lookup : Lookup ε)
    (limit : Option Nat) :
    (expandText lookup limit t).SameAnswers (expandText lookup limit before) := by
  rcases h with ⟨-, rfl⟩ | ⟨span, hend⟩
  · exact ⟨rfl, rfl⟩
  · exact hend.expandText_sameAnswers lookup limit

/-- A template without answers is written back as it stands, up to its unterminated placeholder. -/
theorem result_of_unanswered (h : UpToUnterminated t before) {r : Resolver}
    (hnone : ∀ name ∈ (segments t).filterMap Segment.name?, r name = none) (limit : Option Nat) :
    (expandText r.total limit t).result = .ok before := by
  have hbefore : ∀ name ∈ (Template.ofText before).outerNames, r name = none := by
    intro name hname
    rw [Template.outerNames_ofText, h.names_eq] at hname
    exact hnone name hname
  rw [(h.sameAnswers r.total limit).1, expandText, Template.expand,
    Template.expandAt_of_unanswered hbefore limit 0]
  rw [Template.ofText_eq_ofSegments] at hbefore ⊢
  rw [Template.output_of_unanswered h.complete hbefore]

end UpToUnterminated

/-- Nothing that stands before an unterminated placeholder is lost, and an expansion of what is
written back ends as that of the template. -/
theorem exists_written_back {r : Resolver} {t : Text}
    (h : ∀ name ∈ (Template.ofText t).outerNames, r name = none) :
    ∃ before : Text,
      (∀ limit, (expandText r.total limit t).result = .ok before) ∧
        ∀ {ε : Type} (lookup : Lookup ε) (limit : Option Nat),
          (expandText lookup limit t).SameAnswers (expandText lookup limit before) := by
  obtain ⟨before, hbefore⟩ := exists_upToUnterminated t
  rw [Template.outerNames_ofText] at h
  exact ⟨before, hbefore.result_of_unanswered h, hbefore.sameAnswers⟩

theorem events_of_unanswered {r : Resolver} {t : Text}
    (h : ∀ name ∈ (segments t).filterMap Segment.name?, r name = none) (limit : Option Nat) :
    (expandText r.total limit t).events = (segments t).flatMap Segment.unanswered := by
  have houter : ∀ name ∈ (Template.ofText t).outerNames, r name = none := by
    intro name hname
    rw [Template.outerNames_ofText] at hname
    exact h name hname
  rw [expandText, Template.expand, Template.expandAt_of_unanswered houter limit 0,
    Template.ofText_eq_ofSegments]
  exact Template.events_ofSegments_of_unanswered h

theorem names_of_unanswered {r : Resolver} {t : Text}
    (h : ∀ name ∈ (segments t).filterMap Segment.name?, r name = none) (limit : Option Nat) :
    (expandText r.total limit t).names = (segments t).filterMap Segment.name? := by
  rw [Run.names, events_of_unanswered h, names_flatMap_unanswered]

/-- **A template that nobody answers is written back.** Every limit is enough, also the one that
lets no pattern be taken. The names outside of patterns are asked for in order, each placeholder is
kept, and the text is that of the template, up to an unterminated placeholder. Expanding that text
again asks for the same names and changes nothing. Without a `${` there is nothing to answer: the
whole text is written back, and nothing is asked for. -/
theorem written_back_of_unanswered {r : Resolver} {t : Text}
    (h : ∀ name ∈ (segments t).filterMap Segment.name?, r name = none) :
    ∃ before : Text, UpToUnterminated t before ∧
      (∀ limit : Option Nat,
        let run := expandText r.total limit t
        let again := expandText r.total limit before
        run.result = .ok before ∧
          run.events = (segments t).flatMap Segment.unanswered ∧
          run.names = (segments t).filterMap Segment.name? ∧
          again.result = .ok before ∧ again.names = run.names) ∧
      (¬ HasOpening t → before = t ∧ (segments t).filterMap Segment.name? = []) := by
  obtain ⟨before, hbefore⟩ := exists_upToUnterminated t
  refine ⟨before, hbefore, ?_, ?_⟩
  · intro limit run again
    have hresult : run.result = .ok before := hbefore.result_of_unanswered h limit
    obtain ⟨hagain, hnames⟩ : run.SameAnswers again := hbefore.sameAnswers r.total limit
    exact ⟨hresult, events_of_unanswered h limit, names_of_unanswered h limit,
      hagain ▸ hresult, hnames.symm⟩
  · intro hplain
    have hsegments : segments t = literalSegments t := segmentsFrom_of_not_hasOpening hplain 0
    constructor
    · rcases hbefore with ⟨-, heq⟩ | ⟨span, hend⟩
      · exact heq
      · -- A literal is no unterminated placeholder.
        have hmem : .unterminated span ∈ literalSegments t := by
          rw [← hsegments, hend.segments_eq]
          exact List.mem_append_right _ List.mem_cons_self
        cases eq_literal_of_mem_literalSegments hmem
    · rw [hsegments, literalSegments]
      split <;> rfl

/-- The name in the pattern has an answer, the one outside has none. Whatever the limit, the pattern
is written back as it stands and its name is not asked for. -/
theorem written_back_of_unanswered_pattern :
    let r : Resolver := fun name => if name = ['b'] then some ['v'] else none
    let before : Text := ['$', '$', '{', '!', 'a', '?', 'x', '$', '{', 'b', '}', '}', '$']
    let t : Text := before ++ ['$', '{', 'c']
    (∀ name ∈ (segments t).filterMap Segment.name?, r name = none) ∧
      ∀ limit, (expandText r.total limit t).result = .ok before ∧
        (expandText r.total limit t).names = [['a']] ∧
        (expandText r.total limit before).result = .ok before := by
  intro r before t
  have hnames : (segments t).filterMap Segment.name? = [['a']] := by decide +kernel
  have hnone : ∀ name ∈ (segments t).filterMap Segment.name?, r name = none := by
    rw [hnames]
    decide
  refine ⟨hnone, fun limit => ?_⟩
  obtain ⟨front, -, hruns, -⟩ := written_back_of_unanswered hnone
  -- One run tells where the text is cut.
  have hrun : (expandText r.total none t).result = .ok before := by decide +kernel
  obtain rfl : front = before := Except.ok.inj ((hruns none).1.symm.trans hrun)
  obtain ⟨hresult, -, hasked, hagain, -⟩ := hruns limit
  exact ⟨hresult, hasked.trans hnames, hagain⟩

/-! ### Checking -/

/-- A check for two passes whose first one answers nothing is a check for the second one. -/
theorem Template.findingsInPasses_of_unanswered {A : Resolver} (h : ∀ name, A name = none)
    (C : Resolver) (t : Template) : t.findingsInPasses A C = t.findings C := by
  induction t with
  | done => rfl
  | literal text rest ih => exact ih
  | placeholder e span rest ih =>
    rw [findingsInPasses, findings, ih, h, nameFindings]
    split <;> rfl
  | conditional e span pattern rest ihp ih =>
    rw [findingsInPasses, findings, ihp, ih, h, nameFindings]
    split
    · rfl
    · cases C e.name <;> rfl
  | unterminated span rest ih => rw [findingsInPasses, findings, ih]

/-! ### No arguments -/

theorem Resolver.arguments_nil (name : Text) : Resolver.arguments [] name = none := by
  unfold Resolver.arguments
  split <;> rfl

/-- **Without arguments only the configuration counts.** Processing with no arguments and a
configuration ends as processing with the configuration does, under every limit and also where the
limit is exceeded. Checking finds the same at the same places. -/
theorem no_arguments_leave_configuration (p : Processor) (t : Text) (c : Option Configuration) :
    (p.processBoth t c []).result = (p.processConfiguration t c).result ∧
      checkBoth t c [] = check t (.configuration c) := by
  constructor
  · obtain ⟨before, hbefore, hsame⟩ :=
      exists_written_back (t := t) fun name _ => Resolver.arguments_nil name
    have hfirst : (p.processArguments t []).result = .ok before := by
      rw [Processor.processArguments, Processor.expand, Run.mapError, hbefore]
      rfl
    have hsecond : (p.processConfiguration before c).result =
        (p.processConfiguration t c).result := by
      simp only [Processor.processConfiguration, Processor.expand, Run.mapError,
        (hsame (Resolver.configuration c).total p.maxDepth).1]
    rw [Processor.processBoth, Run.bind, hfirst]
    exact hsecond
  · exact Template.findingsInPasses_of_unanswered Resolver.arguments_nil _ _

end Interpolation

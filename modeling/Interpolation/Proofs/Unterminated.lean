import Interpolation.Diagnostic.Check
import Interpolation.Proofs.Reading
import Interpolation.Proofs.Segmentation

/-!
# Interpolation.Proofs.Unterminated

An **unterminated placeholder** stands at the end of a template and nowhere else, in
particular in no pattern.

A pattern begins behind the first `?` of a body, so its own braces need not be balanced: the
pattern of `${a{?b}c}` is `b}c`. But it is a *suffix* of a body, and a suffix of a balanced text
never opens more than it closes (`ClosesOut`). Behind a `${` that is never closed there would be
more opened than closed.

`unterminated_only_at_end` puts together what follows for checking and for expanding a template.
-/

namespace Interpolation

/-! ### Patterns -/

/-- No suffix of the text opens more braces than it closes. -/
def ClosesOut (t : Text) : Prop := ∀ s : Text, s <:+ t → s.opens ≤ s.closes

theorem ClosesOut.of_suffix {s t : Text} (h : ClosesOut t) (hs : s <:+ t) : ClosesOut s :=
  fun s' hs' => h s' (hs'.trans hs)

theorem BraceBalanced.closesOut {t : Text} (h : BraceBalanced t) : ClosesOut t :=
  fun _ hs => h.opens_le_closes_of_suffix hs

theorem closesOut_of_pattern {raw pattern : Text} (hr : BraceBalanced raw)
    (h : (Expression.parse raw).pattern = some pattern) : ClosesOut pattern := by
  obtain ⟨head, rfl, -, -⟩ := Expression.raw_eq_of_pattern h
  exact hr.closesOut.of_suffix ⟨head ++ ['?'], by simp⟩

/-- Behind the `{` of an opening the level returns to zero. -/
theorem ClosesOut.not_staysOpen {lead body : Text} (h : ClosesOut (lead ++ '$' :: '{' :: body)) :
    ¬ StaysOpen 0 body := by
  intro hopen
  have hsuffix : '{' :: body <:+ lead ++ '$' :: '{' :: body := ⟨lead ++ ['$'], by simp⟩
  have hle := h _ hsuffix
  have hge := hopen body (List.prefix_refl body)
  rw [Text.opens_cons_open, Text.closes_cons_open] at hle
  omega

theorem ClosesOut.not_isUnterminated {t : Text} (h : ClosesOut t) {start : Nat} {s : Segment}
    (hs : s ∈ segmentsFrom start t) : ¬ s.isUnterminated := by
  induction t using Text.segmentInduction generalizing start with
  | plain t ht =>
    rw [segmentsFrom_of_not_hasOpening ht] at hs
    exact not_isUnterminated_of_mem_literalSegments hs
  | unclosed lead body hl hb => exact absurd hb h.not_staysOpen
  | closed lead raw rest hl hr ih =>
    rcases (mem_segmentsFrom_closed hl hr).1 hs with hs | rfl | hs
    · exact not_isUnterminated_of_mem_literalSegments hs
    · exact Bool.false_ne_true
    · exact ih (h.of_suffix ⟨lead ++ '$' :: '{' :: (raw ++ ['}']), by simp⟩) hs

/-- `p` is the pattern of a placeholder of `t`, or of a placeholder in such a pattern,
or further inside. -/
inductive PatternIn : Text → Text → Prop
  /-- The pattern of a placeholder. -/
  | direct {t p : Text} {e : Expression} {span : Span} (hmem : .placeholder e span ∈ segments t)
      (hp : e.pattern = some p) : PatternIn t p
  /-- A pattern inside the pattern of a placeholder. -/
  | nested {t q p : Text} {e : Expression} {span : Span} (hmem : .placeholder e span ∈ segments t)
      (hq : e.pattern = some q) (hp : PatternIn q p) : PatternIn t p

/-- The body of every placeholder is balanced. -/
theorem exists_raw_of_placeholder_mem {t : Text} {start : Nat} {e : Expression} {span : Span}
    (h : .placeholder e span ∈ segmentsFrom start t) :
    ∃ raw : Text, e = Expression.parse raw ∧ BraceBalanced raw := by
  induction t using Text.segmentInduction generalizing start with
  | plain t ht =>
    rw [segmentsFrom_of_not_hasOpening ht] at h
    cases eq_literal_of_mem_literalSegments h
  | unclosed lead body hl hb =>
    rcases (mem_segmentsFrom_unclosed hl hb).1 h with h | h
    · cases eq_literal_of_mem_literalSegments h
    · cases h
  | closed lead raw rest hl hr ih =>
    rcases (mem_segmentsFrom_closed hl hr).1 h with h | h | h
    · cases eq_literal_of_mem_literalSegments h
    · cases h
      exact ⟨raw, rfl, hr⟩
    · exact ih h

/-- Every pattern closes what it opens, at every depth. The body around it is balanced,
whatever stands around that. -/
theorem PatternIn.closesOut {t p : Text} (h : PatternIn t p) : ClosesOut p := by
  induction h with
  | direct hmem hp =>
    obtain ⟨raw, rfl, hr⟩ := exists_raw_of_placeholder_mem hmem
    exact closesOut_of_pattern hr hp
  | nested _ _ _ ih => exact ih

/-! ### The end of a template -/

/-- A template has no unterminated segment, or it is another template that has none, and one
unterminated segment behind it. -/
theorem segmentsFrom_cases (start : Nat) (t : Text) :
    (∀ s ∈ segmentsFrom start t, ¬ s.isUnterminated) ∨
      ∃ before body : Text, t = before ++ '$' :: '{' :: body ∧
        (∀ s ∈ segmentsFrom start before, ¬ s.isUnterminated) ∧
        segmentsFrom start t = segmentsFrom start before ++
          [.unterminated ⟨start + before.byteLength, start + t.byteLength⟩] := by
  induction t using Text.segmentInduction generalizing start with
  | plain t ht =>
    left
    rw [segmentsFrom_of_not_hasOpening ht]
    exact fun _ hs => not_isUnterminated_of_mem_literalSegments hs
  | unclosed lead body hl hb =>
    right
    refine ⟨lead, body, rfl, ?_, ?_⟩
    · rw [segmentsFrom_of_not_hasOpening hl]
      exact fun _ hs => not_isUnterminated_of_mem_literalSegments hs
    · rw [segmentsFrom_unclosed hl hb, segmentsFrom_of_not_hasOpening hl]
  | closed lead raw rest hl hr ih =>
    -- The segments up to the first placeholder are complete, so the rest decides.
    have hfront : ∀ u : Text, (∀ s ∈ segmentsFrom (start + lead.byteLength + raw.byteLength + 3) u,
        ¬ s.isUnterminated) →
        ∀ s ∈ segmentsFrom start (lead ++ '$' :: '{' :: (raw ++ '}' :: u)), ¬ s.isUnterminated := by
      intro u hu s hs
      rcases (mem_segmentsFrom_closed hl hr).1 hs with hs | rfl | hs
      · exact not_isUnterminated_of_mem_literalSegments hs
      · exact Bool.false_ne_true
      · exact hu s hs
    rcases ih (start + lead.byteLength + raw.byteLength + 3) with
      hall | ⟨before, body, rfl, hall, heq⟩
    · exact .inl (hfront rest hall)
    · refine .inr ⟨lead ++ '$' :: '{' :: (raw ++ '}' :: before), body, by simp,
        hfront before hall, ?_⟩
      rw [segmentsFrom_closed hl hr, segmentsFrom_closed hl hr, heq]
      simp only [List.append_assoc, List.cons_append, Text.byteLength_append, Text.byteLength_cons,
        Text.utf8Size_dollar, Text.utf8Size_open, Text.utf8Size_close]
      congr 6 <;> omega

namespace Template

/-! ### Checking -/

theorem findings_append (r : Resolver) (t t' : Template) :
    (t.append t').findings r = t.findings r ++ t'.findings r := by
  induction t with
  | done => rfl
  | literal text rest ih => simp only [append, findings, ih]
  | placeholder e span rest ih => simp only [append, findings, ih, List.append_assoc]
  | conditional e span pattern rest _ ih => simp only [append, findings, ih, List.append_assoc]
  | unterminated span rest ih => simp only [append, findings, ih, List.cons_append]

theorem findings_ofSegments_literalSegments (r : Resolver) (base : Nat) (t : Text) :
    (ofSegments base (literalSegments t)).findings r = [] := by
  unfold literalSegments
  split
  · rw [ofSegments_nil, findings]
  · rw [ofSegments_literal, ofSegments_nil, findings, findings]

theorem severity_of_mem_nameFindings {r : Resolver} {e : Expression} {span : Span} {f : Finding}
    (h : f ∈ nameFindings r e span) : f.problem.severity = .warning := by
  unfold nameFindings at h
  split at h
  · rw [List.mem_singleton.1 h, Problem.severity]
  · split at h
    · rw [List.mem_singleton.1 h, Problem.severity]
    · cases h

/-- Without an unterminated segment there are only warnings, also in the patterns. -/
theorem severity_of_mem_findings {r : Resolver} {t : Text} {base start : Nat}
    (hall : ∀ s ∈ segmentsFrom start t, ¬ s.isUnterminated) {f : Finding}
    (hf : f ∈ (ofSegments base (segmentsFrom start t)).findings r) :
    f.problem.severity = .warning := by
  induction t using Text.templateInduction generalizing base start with
  | plain t ht =>
    rw [segmentsFrom_of_not_hasOpening ht, findings_ofSegments_literalSegments] at hf
    cases hf
  | unclosed lead body hl hb =>
    exact absurd rfl (hall _ ((mem_segmentsFrom_unclosed hl hb).2 (.inr rfl)))
  | closed lead raw rest hl hr ihp ih =>
    have hrest := fun s hs => hall s ((mem_segmentsFrom_closed hl hr).2 (.inr (.inr hs)))
    rw [segmentsFrom_closed hl hr, ofSegments_append, findings_append,
      findings_ofSegments_literalSegments, List.nil_append] at hf
    cases hp : (Expression.parse raw).pattern with
    | none =>
      rw [ofSegments_placeholder hp, findings] at hf
      rcases List.mem_append.1 hf with hf | hf
      · exact severity_of_mem_nameFindings hf
      · exact ih hrest hf
    | some pattern =>
      rw [ofSegments_conditional hp, findings, ofTextAt_eq] at hf
      rcases List.mem_append.1 hf with hf | hf
      · rcases List.mem_append.1 hf with hf | hf
        · exact severity_of_mem_nameFindings hf
        · -- The pattern was cut out of a balanced body.
          exact ihp pattern hp (fun s hs => (closesOut_of_pattern hr hp).not_isUnterminated hs) hf
      · exact ih hrest hf

end Template

/-- A template without an unterminated segment has no error. -/
theorem not_isError_of_mem_check {t : Text} (hall : ∀ s ∈ segments t, ¬ s.isUnterminated)
    {r : Resolver} {d : Diagnostic} (hd : d ∈ (check t r).map Finding.toDiagnostic) :
    ¬ d.isError := by
  obtain ⟨f, hf, rfl⟩ := List.mem_map.1 hd
  unfold check Template.ofText at hf
  rw [Template.ofTextAt_eq] at hf
  have hwarning := Template.severity_of_mem_findings hall hf
  rw [Diagnostic.isError, Finding.toDiagnostic, hwarning]
  exact Bool.false_ne_true

/-! ### Dropping the end -/

/-- Two runs end in the same way and ask for the same names. -/
def Run.SameAnswers {ε α : Type} (r s : Run ε α) : Prop := r.result = s.result ∧ r.names = s.names

theorem Run.SameAnswers.append {ε : Type} (r : Run ε Text) {s s' : Run ε Text}
    (h : s.SameAnswers s') : (r.append s).SameAnswers (r.append s') := by
  obtain ⟨events, result⟩ := r
  obtain ⟨hresult, hnames⟩ := h
  cases result with
  | error error => exact ⟨rfl, rfl⟩
  | ok text =>
    refine ⟨congrArg (Except.map (text ++ ·)) hresult, ?_⟩
    unfold Run.names at hnames ⊢
    rw [Run.append, Run.append, List.filterMap_append, List.filterMap_append, hnames]

/-- An unterminated placeholder at the end is only noted. -/
theorem Template.sameAnswers_append_unterminated {ε : Type} (lookup : Lookup ε) (limit : Option Nat)
    (t : Template) (span : Span) (depth : Nat) :
    ((t.append (.unterminated span .done)).expandAt lookup limit depth).SameAnswers
      (t.expandAt lookup limit depth) := by
  induction t with
  | done => exact ⟨rfl, rfl⟩
  | literal text rest ih => exact ih.append _
  | placeholder e span' rest ih => exact ih.append _
  | conditional e span' pattern rest _ ih => exact ih.append _
  | unterminated span' rest ih => exact ih

/-- A template whose last segment is unterminated is the one before that segment, which
is dropped. -/
structure EndsUnterminated (t before : Text) (span : Span) : Prop where
  /-- The segment is the last one. -/
  segments_eq : segments t = segments before ++ [.unterminated span]
  /-- The template before the segment has no such segment. -/
  complete : ∀ s ∈ segments before, ¬ s.isUnterminated
  /-- The segment begins where that template ends. -/
  slice_eq : t.slice? ⟨0, span.start⟩ = some before
  /-- The segment reaches to the end. -/
  stop_eq : span.stop = t.byteLength

theorem complete_or_endsUnterminated (t : Text) :
    (∀ s ∈ segments t, ¬ s.isUnterminated) ∨ ∃ before span, EndsUnterminated t before span := by
  rcases segmentsFrom_cases 0 t with hall | ⟨before, body, rfl, hall, heq⟩
  · exact .inl hall
  · refine .inr ⟨before, _, heq, hall, ?_, Nat.zero_add _⟩
    exact Text.slice?_eq_some_iff.2 ⟨[], '$' :: '{' :: body, rfl, rfl, rfl⟩

namespace EndsUnterminated

variable {t before : Text} {span : Span}

theorem ofText_eq (h : EndsUnterminated t before span) :
    Template.ofText t = (Template.ofText before).append (.unterminated span .done) := by
  have hshift : span.shift 0 = span := rfl
  unfold Template.ofText
  rw [Template.ofTextAt_eq, Template.ofTextAt_eq, h.segments_eq, Template.ofSegments_append,
    Template.ofSegments_unterminated, Template.ofSegments_nil, hshift]

theorem getLast?_eq (h : EndsUnterminated t before span) :
    (segments t).getLast? = some (.unterminated span) := by
  rw [h.segments_eq, List.getLast?_concat]

theorem diagnostics_eq (h : EndsUnterminated t before span) (r : Resolver) :
    (check t r).map Finding.toDiagnostic =
      (check before r).map Finding.toDiagnostic ++
      [⟨.error, span, Problem.unterminated.message⟩] := by
  unfold check
  rw [h.ofText_eq, Template.findings_append, List.map_append]
  rfl

theorem errors_eq (h : EndsUnterminated t before span) (r : Resolver) :
    ((check t r).map Finding.toDiagnostic).filter Diagnostic.isError =
      [⟨.error, span, Problem.unterminated.message⟩] := by
  have hnone : ((check before r).map Finding.toDiagnostic).filter Diagnostic.isError = [] :=
    List.filter_eq_nil_iff.2 fun d hd => not_isError_of_mem_check h.complete hd
  rw [h.diagnostics_eq, List.filter_append, hnone]
  rfl

theorem expandText_sameAnswers (h : EndsUnterminated t before span) {ε : Type} (lookup : Lookup ε)
    (limit : Option Nat) :
    (expandText lookup limit t).SameAnswers (expandText lookup limit before) := by
  unfold expandText Template.expand
  rw [h.ofText_eq]
  exact Template.sameAnswers_append_unterminated lookup limit _ _ 0

end EndsUnterminated

/-- **Only the end of a template can be unterminated.** No pattern of it is, at any depth. Checking
it gives at most one error, the last diagnostic, and gives one exactly if the last segment is
unterminated. The error is about that segment, which reaches to the end, and the template expands as
the text before it does. -/
theorem unterminated_only_at_end (t : Text) :
    (∀ p, PatternIn t p → ∀ s ∈ segments p, ¬ s.isUnterminated) ∧
      ∀ r : Resolver,
        let diagnostics := (check t r).map Finding.toDiagnostic
        let errors := diagnostics.filter Diagnostic.isError
        errors.length ≤ 1 ∧
          (errors ≠ [] ↔ ∃ span, (segments t).getLast? = some (.unterminated span)) ∧
          ∀ d ∈ errors, diagnostics.getLast? = some d ∧
            (segments t).getLast? = some (.unterminated d.span) ∧
            d.span.stop = t.byteLength ∧
            ∃ before : Text, t.slice? ⟨0, d.span.start⟩ = some before ∧
              ∀ {ε : Type} (lookup : Lookup ε) (limit : Option Nat),
                (expandText lookup limit t).result = (expandText lookup limit before).result ∧
                  (expandText lookup limit t).names = (expandText lookup limit before).names := by
  refine ⟨fun p hp s hs => hp.closesOut.not_isUnterminated hs, ?_⟩
  intro r diagnostics errors
  rcases complete_or_endsUnterminated t with hall | ⟨before, span, hend⟩
  · have hnone : errors = [] :=
      List.filter_eq_nil_iff.2 fun d hd => not_isError_of_mem_check hall hd
    rw [hnone]
    refine ⟨Nat.zero_le 1, ⟨fun h => absurd rfl h, ?_⟩, fun d hd => absurd hd List.not_mem_nil⟩
    rintro ⟨span, hlast⟩
    exact absurd rfl (hall _ (List.mem_of_getLast? hlast))
  · have herrors : errors = [⟨.error, span, Problem.unterminated.message⟩] := hend.errors_eq r
    rw [herrors]
    refine ⟨Nat.le_refl 1, ⟨fun _ => ⟨span, hend.getLast?_eq⟩, fun _ => List.cons_ne_nil _ _⟩, ?_⟩
    intro d hd
    rw [List.mem_singleton.1 hd]
    refine ⟨?_, hend.getLast?_eq, hend.stop_eq, before, hend.slice_eq, ?_⟩
    · show ((check t r).map Finding.toDiagnostic).getLast? = _
      rw [hend.diagnostics_eq, List.getLast?_concat]
    · intro ε lookup limit
      exact hend.expandText_sameAnswers lookup limit

end Interpolation

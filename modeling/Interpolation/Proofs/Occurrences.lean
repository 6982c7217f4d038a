import Interpolation.Proofs.Expressions
import Interpolation.Proofs.TwoPasses

/-!
# Interpolation.Proofs.Occurrences

The **placeholders of a template**, as a check and an expansion meet them.

`Template.occurrences` lists every placeholder in the order of its first byte, those inside
patterns behind the one that the pattern belongs to. Checking looks at all of them. Expanding
asks for some of them (`Template.asked`): a pattern that is not taken is passed over, and
nothing is asked for twice.

* `Occurrence.StandIn`: each occurrence stands in the template where its span says, no two at the
  same byte, and one inside another or behind it.
* `mem_findings_of_mem_occurrences`: a check says of every occurrence what is wrong with its name.
* `exists_asked_occurrences`: what this means for an expansion. In a template without diagnostics
  nothing is kept and nothing is dropped.
-/

namespace Interpolation

/-- A placeholder and where it stands. -/
structure Occurrence where
  /-- What stands between its braces. -/
  expression : Expression
  /-- The bytes of the template that it takes up, its delimiters included. -/
  span : Span
  deriving DecidableEq, Repr

namespace Template

/-- The placeholders of a template in pre-order, those of its patterns included. -/
def occurrences : Template → List Occurrence
  | .done => []
  | .literal _ rest => rest.occurrences
  | .placeholder e span rest => ⟨e, span⟩ :: rest.occurrences
  | .conditional e span pattern rest => ⟨e, span⟩ :: (pattern.occurrences ++ rest.occurrences)
  | .unterminated _ rest => rest.occurrences

/-- The placeholders that an expansion asks for, in the order of the questions. -/
def asked (r : Resolver) : Template → List Occurrence
  | .done => []
  | .literal _ rest => rest.asked r
  | .placeholder e span rest => ⟨e, span⟩ :: rest.asked r
  | .conditional e span pattern rest =>
    ⟨e, span⟩ ::
      ((match r e.name with
        | none => []
        | some replacement =>
          if e.takesPattern replacement then pattern.asked r else []) ++ rest.asked r)
  | .unterminated _ rest => rest.asked r

theorem occurrences_append (t t' : Template) :
    (t.append t').occurrences = t.occurrences ++ t'.occurrences := by
  induction t with
  | done => rfl
  | literal text rest ih => simp only [append, occurrences, ih]
  | placeholder e span rest ih => simp only [append, occurrences, ih, List.cons_append]
  | conditional e span pattern rest _ ih =>
    simp only [append, occurrences, ih, List.cons_append, List.append_assoc]
  | unterminated span rest ih => simp only [append, occurrences, ih]

theorem occurrences_ofSegments_literalSegments (base : Nat) (t : Text) :
    (ofSegments base (literalSegments t)).occurrences = [] := by
  unfold literalSegments
  split
  · rw [ofSegments_nil, occurrences]
  · rw [ofSegments_literal, ofSegments_nil, occurrences, occurrences]

/-! ### Questions -/

/-- Questions go through the placeholders in order, and only leave some out. -/
theorem asked_sublist_occurrences (r : Resolver) (t : Template) :
    (t.asked r).Sublist t.occurrences := by
  induction t with
  | done => exact List.Sublist.slnil
  | literal text rest ih => exact ih
  | placeholder e span rest ih => exact ih.cons_cons _
  | conditional e span pattern rest ihp ih =>
    rw [asked, occurrences]
    refine List.Sublist.cons_cons _ (List.Sublist.append ?_ ih)
    cases r e.name with
    | none => exact List.nil_sublist _
    | some replacement =>
      by_cases htaken : e.takesPattern replacement
      · simp only [htaken, if_true]
        exact ihp
      · simp only [htaken]
        exact List.nil_sublist _
  | unterminated span rest ih => exact ih

theorem names_eq_map_asked (r : Resolver) (t : Template) :
    t.names r = (t.asked r).map fun o => o.expression.name := by
  induction t with
  | done => rfl
  | literal text rest ih => rw [names_literal, ih, asked]
  | placeholder e span rest ih => rw [names_placeholder, ih, asked, List.map_cons]
  | conditional e span pattern rest ihp ih =>
    rw [names_conditional, ih, asked, List.map_cons, List.map_append]
    cases r e.name with
    | none => rfl
    | some replacement =>
      by_cases htaken : e.takesPattern replacement
      · simp only [htaken, if_true, ihp]
      · simp only [htaken]
        rfl
  | unterminated span rest ih => rw [names_unterminated, ih, asked]

theorem eq_none_of_kept_mem_events {r : Resolver} {t : Template} {name : Text}
    (h : .kept name ∈ t.events r) : name ∈ t.names r ∧ r name = none := by
  induction t with
  | done => cases h
  | literal text rest ih => exact ih h
  | placeholder e span rest ih =>
    rw [names_placeholder]
    rw [events] at h
    cases hr : r e.name with
    | none =>
      simp only [hr, List.mem_cons, List.mem_append, List.not_mem_nil, or_false,
        reduceCtorEq, false_or, Event.kept.injEq] at h
      rcases h with rfl | h
      · exact ⟨List.mem_cons_self, hr⟩
      · exact ⟨List.mem_cons_of_mem _ (ih h).1, (ih h).2⟩
    | some replacement =>
      simp only [hr, List.nil_append, List.mem_cons, reduceCtorEq, false_or] at h
      exact ⟨List.mem_cons_of_mem _ (ih h).1, (ih h).2⟩
  | conditional e span pattern rest ihp ih =>
    rw [names_conditional]
    rw [events] at h
    cases hr : r e.name with
    | none =>
      simp only [hr, List.mem_cons, List.mem_append, List.not_mem_nil, or_false,
        reduceCtorEq, false_or, Event.kept.injEq] at h
      rcases h with rfl | h
      · exact ⟨List.mem_cons_self, hr⟩
      · exact ⟨List.mem_cons_of_mem _ (ih h).1, (ih h).2⟩
    | some replacement =>
      by_cases htaken : e.takesPattern replacement
      · simp only [hr, htaken, if_true, List.mem_cons, List.mem_append, reduceCtorEq,
          false_or] at h ⊢
        rcases h with h | h
        · exact ⟨.inr (.inl (ihp h).1), (ihp h).2⟩
        · exact ⟨.inr (.inr (ih h).1), (ih h).2⟩
      · simp only [hr, htaken, Bool.false_eq_true, if_false, List.nil_append,
          List.mem_cons, reduceCtorEq, false_or] at h ⊢
        exact ⟨.inr (ih h).1, (ih h).2⟩
  | unterminated span rest ih =>
    rw [events] at h
    rcases List.mem_cons.1 h with h | h
    · cases h
    · exact ih h

/-! ### Findings -/

/-- Whatever is wrong with the name of a placeholder is found, at every depth. -/
theorem mem_findings_of_mem_occurrences {r : Resolver} {t : Template} {o : Occurrence}
    (ho : o ∈ t.occurrences) {f : Finding} (hf : f ∈ nameFindings r o.expression o.span) :
    f ∈ t.findings r := by
  induction t with
  | done => cases ho
  | literal text rest ih => exact ih ho
  | placeholder e span rest ih =>
    rw [findings]
    rcases List.mem_cons.1 ho with rfl | ho
    · exact List.mem_append_left _ hf
    · exact List.mem_append_right _ (ih ho)
  | conditional e span pattern rest ihp ih =>
    rw [findings]
    rcases List.mem_cons.1 ho with rfl | ho
    · exact List.mem_append_left _ (List.mem_append_left _ hf)
    · rcases List.mem_append.1 ho with ho | ho
      · exact List.mem_append_left _ (List.mem_append_right _ (ihp ho))
      · exact List.mem_append_right _ (ih ho)
  | unterminated span rest ih => exact List.mem_cons_of_mem _ (ih ho)

/-- A name without an answer is a finding, an empty one for its emptiness. -/
theorem nameFindings_of_eq_none {r : Resolver} {e : Expression} (h : r e.name = none)
    (span : Span) :
    nameFindings r e span = [⟨if e.name = [] then .emptyName else .unresolved e.name, span⟩] := by
  unfold nameFindings
  split
  · rfl
  · rw [h]
    rfl

/-- Where a name was asked for without an answer, the check has a warning. -/
theorem warning_mem_of_asked {r : Resolver} {t : Template} {o : Occurrence} (ho : o ∈ t.asked r)
    (hnone : r o.expression.name = none) :
    ⟨.warning, o.span, if o.expression.name = [] then Problem.emptyName.message
        else (Problem.unresolved o.expression.name).message⟩ ∈
      (t.findings r).map Finding.toDiagnostic := by
  have hmem := (asked_sublist_occurrences r t).subset ho
  have hfound := mem_findings_of_mem_occurrences (r := r) hmem
    (by rw [nameFindings_of_eq_none hnone]; exact List.mem_singleton_self _)
  refine List.mem_map.2 ⟨_, hfound, ?_⟩
  by_cases hname : o.expression.name = []
  · simp only [hname, if_true, Finding.toDiagnostic, Problem.severity]
  · simp only [hname, if_false, Finding.toDiagnostic, Problem.severity]

end Template

/-! ### Where placeholders stand -/

theorem Expression.byteLength_written (e : Expression) :
    e.written.byteLength = e.raw.byteLength + 3 :=
  Text.byteLength_braced e.raw []

/-- The occurrences stand in `w` where their spans say, each one behind the beginning of the one
before it, and all between the bytes `low` and `high`. -/
structure Occurrence.StandIn (w : Text) (low high : Nat) (l : List Occurrence) : Prop where
  /-- In the bytes of a span stands its placeholder. -/
  slice_eq : ∀ o ∈ l, w.slice? o.span = some o.expression.written
  /-- The spans do not leave the bytes from `low` to `high`. -/
  within : ∀ o ∈ l, low ≤ o.span.start ∧ o.span.stop ≤ high
  /-- They begin one behind the other. -/
  ordered : l.Pairwise fun o o' => o.span.start < o'.span.start
  /-- Each one ends before a later one begins, or not before that one ends. -/
  nested : l.Pairwise fun o o' => o.span.stop ≤ o'.span.start ∨ o'.span.stop ≤ o.span.stop

namespace Occurrence

variable {w : Text} {low middle high : Nat} {l l' : List Occurrence}

theorem standIn_nil : StandIn w low high [] :=
  ⟨fun _ h => (List.not_mem_nil h).elim, fun _ h => (List.not_mem_nil h).elim, List.Pairwise.nil,
    List.Pairwise.nil⟩

theorem StandIn.mono (h : StandIn w low high l) {low' high' : Nat} (hlow : low' ≤ low)
    (hhigh : high ≤ high') : StandIn w low' high' l := by
  refine ⟨h.slice_eq, ?_, h.ordered, h.nested⟩
  intro o ho
  obtain ⟨hstart, hstop⟩ := h.within o ho
  exact ⟨hlow.trans hstart, hstop.trans hhigh⟩

theorem start_lt_stop {o : Occurrence} (h : w.slice? o.span = some o.expression.written) :
    o.span.start < o.span.stop := by
  obtain ⟨e, start, stop⟩ := o
  obtain ⟨-, -, -, -, hstop⟩ := Text.slice?_eq_some_iff.1 h
  rw [e.byteLength_written] at hstop
  show start < stop
  omega

theorem StandIn.append (h : StandIn w low middle l) (h' : StandIn w middle high l')
    (hlow : low ≤ middle) (hhigh : middle ≤ high) : StandIn w low high (l ++ l') := by
  constructor
  · intro o ho
    rcases List.mem_append.1 ho with ho | ho
    · exact h.slice_eq o ho
    · exact h'.slice_eq o ho
  · intro o ho
    rcases List.mem_append.1 ho with ho | ho
    · exact ⟨(h.within o ho).1, (h.within o ho).2.trans hhigh⟩
    · exact ⟨hlow.trans (h'.within o ho).1, (h'.within o ho).2⟩
  · refine List.pairwise_append.2 ⟨h.ordered, h'.ordered, ?_⟩
    intro o ho o' ho'
    have hlt := start_lt_stop (h.slice_eq o ho)
    have hle := (h.within o ho).2
    have hge := (h'.within o' ho').1
    omega
  · refine List.pairwise_append.2 ⟨h.nested, h'.nested, ?_⟩
    intro o ho o' ho'
    exact .inl ((h.within o ho).2.trans (h'.within o' ho').1)

/-- A placeholder stands before those inside it. -/
theorem StandIn.cons {o : Occurrence} (ho : w.slice? o.span = some o.expression.written)
    (h : StandIn w (o.span.start + 1) o.span.stop l) :
    StandIn w o.span.start o.span.stop (o :: l) := by
  constructor
  · exact List.forall_mem_cons.2 ⟨ho, h.slice_eq⟩
  · refine List.forall_mem_cons.2 ⟨⟨Nat.le_refl _, Nat.le_refl _⟩, ?_⟩
    intro o' ho'
    exact ⟨Nat.le_of_succ_le (h.within o' ho').1, (h.within o' ho').2⟩
  · exact List.pairwise_cons.2 ⟨fun o' ho' => (h.within o' ho').1, h.ordered⟩
  · exact List.pairwise_cons.2 ⟨fun o' ho' => .inr (h.within o' ho').2, h.nested⟩

end Occurrence

namespace Template

/-- The occurrences in a text stand in it, wherever the text stands in another one. -/
def OccurrencesStand (t : Text) : Prop :=
  ∀ (before after : Text) (base start : Nat), before.byteLength = base + start →
    Occurrence.StandIn (before ++ (t ++ after)) (base + start) (base + start + t.byteLength)
      (ofSegments base (segmentsFrom start t)).occurrences

/-- A placeholder and those in its pattern, which begins where `Expression.patternOffset` says. -/
theorem standIn_placeholder {raw : Text}
    (ihp : ∀ pattern, (Expression.parse raw).pattern = some pattern → OccurrencesStand pattern)
    (before after : Text) (base : Nat) (span : Span)
    (hstart : before.byteLength = span.start + base)
    (hstop : span.stop = span.start + raw.byteLength + 3) :
    Occurrence.StandIn (before ++ '$' :: '{' :: (raw ++ '}' :: after)) (span.start + base)
      (span.stop + base)
      (ofSegments base [.placeholder (Expression.parse raw) span]).occurrences := by
  have hslice : (before ++ '$' :: '{' :: (raw ++ '}' :: after)).slice? (span.shift base) =
      some (Expression.parse raw).written := by
    refine Text.slice?_eq_some_iff.2 ⟨before, after, by simp, hstart, ?_⟩
    rw [Expression.byteLength_written, Expression.raw_parse]
    omega
  cases hp : (Expression.parse raw).pattern with
  | none =>
    rw [ofSegments_placeholder hp, ofSegments_nil]
    exact Occurrence.StandIn.cons (o := ⟨Expression.parse raw, span.shift base⟩) hslice
      Occurrence.standIn_nil
  | some pattern =>
    obtain ⟨head, rfl, -, -⟩ := Expression.raw_eq_of_pattern hp
    have hmark : '?'.utf8Size = 1 := rfl
    have hoffset : (Expression.parse (head ++ '?' :: pattern)).patternOffset.getD 0 =
        head.byteLength + 1 := by
      rw [Expression.patternOffset_eq hp rfl]
      rfl
    rw [ofSegments_conditional hp, ofSegments_nil, occurrences, occurrences,
      List.append_nil, ofTextAt_eq, hoffset]
    refine Occurrence.StandIn.cons
      (o := ⟨Expression.parse (head ++ '?' :: pattern), span.shift base⟩) hslice ?_
    have hpattern := ihp pattern hp (before ++ '$' :: '{' :: (head ++ ['?'])) ('}' :: after)
      (span.start + base + 2 + (head.byteLength + 1)) 0 (by
        simp only [Text.byteLength_append, Text.byteLength_cons, Text.byteLength_nil,
          Text.utf8Size_dollar, Text.utf8Size_open, hmark]
        omega)
    have htext : before ++ '$' :: '{' :: (head ++ ['?']) ++ (pattern ++ '}' :: after) =
        before ++ '$' :: '{' :: (head ++ '?' :: pattern ++ '}' :: after) := by
      simp
    rw [htext] at hpattern
    refine hpattern.mono ?_ ?_
    · show span.start + base + 1 ≤ span.start + base + 2 + (head.byteLength + 1) + 0
      omega
    · show _ ≤ span.stop + base
      simp only [Text.byteLength_append, Text.byteLength_cons, hmark] at hstop
      omega

theorem occurrencesStand (t : Text) : OccurrencesStand t := by
  induction t using Text.templateInduction with
  | plain t ht =>
    intro before after base start _
    rw [segmentsFrom_of_not_hasOpening ht, occurrences_ofSegments_literalSegments]
    exact Occurrence.standIn_nil
  | unclosed lead body hl hb =>
    intro before after base start _
    rw [segmentsFrom_unclosed hl hb, ofSegments_append, occurrences_append,
      occurrences_ofSegments_literalSegments, ofSegments_unterminated, ofSegments_nil]
    exact Occurrence.standIn_nil
  | closed lead raw rest hl hr ihp ih =>
    intro before after base start h
    have hlead : (before ++ lead).byteLength = start + lead.byteLength + base := by
      rw [Text.byteLength_append]
      omega
    have hfirst := standIn_placeholder ihp (before ++ lead) (rest ++ after) base
      ⟨start + lead.byteLength, start + lead.byteLength + raw.byteLength + 3⟩ hlead rfl
    have hrest := ih (before ++ (lead ++ '$' :: '{' :: (raw ++ ['}']))) after base
      (start + lead.byteLength + raw.byteLength + 3) (by
        rw [Text.byteLength_append, Text.byteLength_append, Text.byteLength_braced,
          Text.byteLength_nil]
        omega)
    have htext : before ++ ((lead ++ '$' :: '{' :: (raw ++ '}' :: rest)) ++ after) =
        before ++ lead ++ '$' :: '{' :: (raw ++ '}' :: (rest ++ after)) := by
      simp
    have htext' : before ++ (lead ++ '$' :: '{' :: (raw ++ ['}'])) ++ (rest ++ after) =
        before ++ lead ++ '$' :: '{' :: (raw ++ '}' :: (rest ++ after)) := by
      simp
    have hlen : (lead ++ '$' :: '{' :: (raw ++ '}' :: rest)).byteLength =
        lead.byteLength + raw.byteLength + 3 + rest.byteLength := by
      rw [Text.byteLength_append, Text.byteLength_braced]
      omega
    rw [htext'] at hrest
    rw [htext, hlen, segmentsFrom_closed hl hr, ofSegments_append, occurrences_append,
      occurrences_ofSegments_literalSegments, List.nil_append]
    -- The placeholder with those in its pattern, then those behind its closing brace.
    show Occurrence.StandIn _ _ _ (ofSegments base ([.placeholder _ _] ++ _)).occurrences
    rw [ofSegments_append, occurrences_append]
    have hboth :=
      Occurrence.StandIn.append hfirst (hrest.mono (by simp only; omega) (Nat.le_refl _))
        (by simp only; omega) (by simp only; omega)
    exact hboth.mono (by simp only; omega) (by omega)

end Template

/-- The occurrences of a text stand in it. -/
theorem standIn_occurrences_ofText (t : Text) :
    Occurrence.StandIn t 0 t.byteLength (Template.ofText t).occurrences := by
  have hstand := Template.occurrencesStand t [] [] 0 0 rfl
  rw [List.nil_append, List.append_nil, ← Template.ofText_eq_ofSegments, Nat.add_zero,
    Nat.zero_add] at hstand
  exact hstand

/-! ### Questions and warnings -/

theorem nothing_lost_of_check_eq_nil {t : Text} {r : Resolver} (h : check t r = []) :
    (∀ name, .kept name ∉ (expandText r.total none t).events) ∧
      ∀ span, .dropped span ∉ (expandText r.total none t).events := by
  have hfindings : (Template.ofSegments 0 (segmentsFrom 0 t)).findings r = [] := by
    rw [← Template.ofText_eq_ofSegments]
    exact h
  obtain ⟨hdropped, hanswered⟩ :=
    lossless_iff.2 (Template.allPlaceholders_of_findings_eq_nil hfindings)
  refine ⟨?_, hdropped⟩
  intro name hkept
  rw [Template.expandText_total] at hkept
  obtain ⟨hname, hnone⟩ := Template.eq_none_of_kept_mem_events hkept
  have hsome := hanswered name (by rw [Template.expandText_total]; exact hname)
  rw [hnone] at hsome
  cases hsome

/-- **What is asked for are placeholders of the template, in order.** Each one is asked for at most
once, since no two stand at the same byte. If there is no answer, the check has a warning at its
span. In a template without diagnostics no placeholder is kept and no text is dropped. -/
theorem exists_asked_occurrences (t : Text) (r : Resolver) :
    let occurrences := (Template.ofText t).occurrences
    let run := expandText r.total none t
    let diagnostics := (check t r).map Finding.toDiagnostic
    (∀ o ∈ occurrences, t.slice? o.span = some o.expression.written) ∧
      (occurrences.Pairwise fun o o' => o.span.start < o'.span.start) ∧
      (∃ asked : List Occurrence, asked.Sublist occurrences ∧
        run.names = asked.map (fun o => o.expression.name) ∧
        ∀ o ∈ asked, r o.expression.name = none →
          ⟨.warning, o.span, if o.expression.name = [] then Problem.emptyName.message
            else (Problem.unresolved o.expression.name).message⟩ ∈ diagnostics) ∧
      (diagnostics = [] →
        (∀ name, .kept name ∉ run.events) ∧ ∀ span, .dropped span ∉ run.events) := by
  intro occurrences run diagnostics
  have hrun : run = ⟨(Template.ofText t).events r, .ok ((Template.ofText t).output r)⟩ :=
    Template.expandText_total r t
  have hstand := standIn_occurrences_ofText t
  refine ⟨hstand.slice_eq, hstand.ordered, ⟨(Template.ofText t).asked r, ?_, ?_, ?_⟩, ?_⟩
  · exact Template.asked_sublist_occurrences r _
  · rw [hrun]
    exact Template.names_eq_map_asked r _
  · intro o ho hnone
    exact Template.warning_mem_of_asked ho hnone
  · intro hnil
    exact nothing_lost_of_check_eq_nil (List.map_eq_nil_iff.1 hnil)

end Interpolation

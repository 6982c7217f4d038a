import Interpolation.Processor
import Interpolation.Proofs.Reading
import Interpolation.Proofs.Segmentation
import Mathlib.Order.Bounds.Defs

/-!
# Interpolation.Proofs.NestingDepth

How deep **patterns are taken inside each other**, and what a limit does.

A limit compares two numbers: the levels that it leaves, and the levels that an expansion needs
(`Template.takenDepth`). If it leaves enough, nothing changes. Otherwise the expansion goes on up to
the first pattern that is one too many, and stops there (`CutOff`).

* `TakesNested` says what patterns inside each other are, from the segments of a text and
  without counting levels.
* `byteLength_pattern_add_le`: a pattern is five bytes shorter than the text that it stands in, so a
  short template cannot need many levels.
* `takenDepth_is_threshold`: the limits that are large enough are those from this depth on.
-/

namespace Interpolation

variable {r : Resolver}

/-- When `t` is expanded, `k` patterns are taken inside each other. A pattern counts if its name has
an answer and the answer takes it. -/
inductive TakesNested (r : Resolver) : Text → Nat → Prop
  /-- No pattern at all. -/
  | none (t : Text) : TakesNested r t 0
  /-- One pattern, and `k` more inside it. -/
  | inside {t pattern replacement : Text} {e : Expression} {span : Span} {k : Nat}
      (hmem : .placeholder e span ∈ segments t) (hpattern : e.pattern = some pattern)
      (hname : r e.name = some replacement) (htaken : e.takesPattern replacement)
      (hinner : TakesNested r pattern k) : TakesNested r t (k + 1)

/-! ### Patterns are short -/

/-- A pattern stands in its text between `${`, at least one character, `?` and `}`. -/
theorem byteLength_pattern_add_le {t pattern : Text} {start : Nat} {e : Expression} {span : Span}
    (hmem : .placeholder e span ∈ segmentsFrom start t) (hpattern : e.pattern = some pattern) :
    pattern.byteLength + 5 ≤ t.byteLength := by
  induction t using Text.segmentInduction generalizing start with
  | plain t ht =>
    rw [segmentsFrom_of_not_hasOpening ht] at hmem
    cases eq_literal_of_mem_literalSegments hmem
  | unclosed lead body hl hb =>
    rw [segmentsFrom_unclosed hl hb] at hmem
    rcases List.mem_append.1 hmem with hmem | hmem
    · cases eq_literal_of_mem_literalSegments hmem
    · cases List.mem_singleton.1 hmem
  | closed lead raw rest hl hr ih =>
    rw [segmentsFrom_closed hl hr] at hmem
    rw [Text.byteLength_append, Text.byteLength_braced]
    rcases List.mem_append.1 hmem with hmem | hmem
    · cases eq_literal_of_mem_literalSegments hmem
    · rcases List.mem_cons.1 hmem with heq | hmem
      · obtain ⟨rfl, -⟩ := Segment.placeholder.inj heq
        obtain ⟨head, rfl, -, hne⟩ := Expression.raw_eq_of_pattern hpattern
        have hhead : head.byteLength ≠ 0 := mt Text.byteLength_eq_zero_iff.1 hne
        have hmark : '?'.utf8Size = 1 := rfl
        rw [Text.byteLength_append, Text.byteLength_cons, hmark]
        omega
      · have hrest := ih hmem
        omega

theorem TakesNested.mul_le_byteLength {t : Text} {k : Nat} (h : TakesNested r t k) :
    5 * k ≤ t.byteLength := by
  induction h with
  | none t => exact Nat.zero_le _
  | inside hmem hpattern _ _ _ ih =>
    have hlen := byteLength_pattern_add_le hmem hpattern
    omega

/-! ### Counting the levels -/

namespace Template

/-- The largest number of patterns that are taken inside each other. -/
def takenDepth (r : Resolver) : Template → Nat
  | .done => 0
  | .literal _ rest => rest.takenDepth r
  | .placeholder _ _ rest => rest.takenDepth r
  | .conditional e _ pattern rest =>
    max
      (match r e.name with
        | none => 0
        | some replacement => if e.takesPattern replacement then pattern.takenDepth r + 1 else 0)
      (rest.takenDepth r)
  | .unterminated _ rest => rest.takenDepth r

theorem takenDepth_unplaced (t : Template) : t.unplaced.takenDepth r = t.takenDepth r := by
  induction t with
  | done => rfl
  | literal text rest ih => exact ih
  | placeholder e span rest ih => exact ih
  | conditional e span pattern rest ihp ih => simp only [unplaced, takenDepth, ihp, ih]
  | unterminated span rest ih => exact ih

theorem takenDepth_ofTextAt (base : Nat) (t : Text) :
    (ofTextAt base t).takenDepth r = (ofText t).takenDepth r := by
  rw [← takenDepth_unplaced, unplaced_ofTextAt, takenDepth_unplaced]

end Template

/-- The levels that the pattern of a placeholder needs, itself included. -/
def Expression.takenDepth (r : Resolver) (e : Expression) : Nat :=
  match e.pattern, r e.name with
  | some pattern, some replacement =>
    if e.takesPattern replacement then (Template.ofText pattern).takenDepth r + 1 else 0
  | _, _ => 0

theorem Expression.takenDepth_of_takesPattern {e : Expression} {pattern replacement : Text}
    (hpattern : e.pattern = some pattern) (hname : r e.name = some replacement)
    (htaken : e.takesPattern replacement) :
    e.takenDepth r = (Template.ofText pattern).takenDepth r + 1 := by
  simp only [takenDepth, hpattern, hname, htaken, if_true]

theorem Expression.exists_of_takenDepth_pos {e : Expression} (h : 0 < e.takenDepth r) :
    ∃ pattern replacement, e.pattern = some pattern ∧ r e.name = some replacement ∧
      e.takesPattern replacement := by
  unfold takenDepth at h
  split at h
  · rename_i pattern replacement hpattern hname
    by_cases htaken : e.takesPattern replacement
    · exact ⟨pattern, replacement, hpattern, hname, htaken⟩
    · simp [htaken] at h
  · cases h

namespace Template

theorem takenDepth_ofSegments_placeholder (base : Nat) (e : Expression) (span : Span)
    (l : List Segment) :
    (ofSegments base (.placeholder e span :: l)).takenDepth r =
      max (e.takenDepth r) ((ofSegments base l).takenDepth r) := by
  cases hpattern : e.pattern with
  | none =>
    rw [ofSegments_placeholder hpattern, takenDepth]
    simp only [Expression.takenDepth, hpattern, Nat.zero_max]
  | some pattern =>
    rw [ofSegments_conditional hpattern, takenDepth, takenDepth_ofTextAt]
    simp only [Expression.takenDepth, hpattern]
    cases r e.name <;> rfl

/-- No placeholder needs more levels than the template. -/
theorem takenDepth_le_ofSegments {base : Nat} {l : List Segment} {e : Expression} {span : Span}
    (h : .placeholder e span ∈ l) : e.takenDepth r ≤ (ofSegments base l).takenDepth r := by
  induction l with
  | nil => cases h
  | cons s l ih =>
    cases s with
    | literal text =>
      rw [ofSegments_literal]
      exact ih (List.mem_of_ne_of_mem Segment.noConfusion h)
    | unterminated span' =>
      rw [ofSegments_unterminated]
      exact ih (List.mem_of_ne_of_mem Segment.noConfusion h)
    | placeholder e' span' =>
      rw [takenDepth_ofSegments_placeholder]
      rcases List.mem_cons.1 h with heq | h
      · obtain ⟨rfl, -⟩ := Segment.placeholder.inj heq
        exact Nat.le_max_left _ _
      · exact (ih h).trans (Nat.le_max_right _ _)

/-- Some placeholder needs all the levels of the template. -/
theorem exists_takenDepth_eq_ofSegments {base : Nat} {l : List Segment}
    (h : 0 < (ofSegments base l).takenDepth r) :
    ∃ e span, .placeholder e span ∈ l ∧ e.takenDepth r = (ofSegments base l).takenDepth r := by
  induction l with
  | nil =>
    rw [ofSegments_nil] at h
    cases h
  | cons s l ih =>
    have behind (hrest : (ofSegments base (s :: l)).takenDepth r =
        (ofSegments base l).takenDepth r) :
        ∃ e span, .placeholder e span ∈ s :: l ∧
          e.takenDepth r = (ofSegments base (s :: l)).takenDepth r := by
      rw [hrest] at h ⊢
      obtain ⟨e, span, hmem, heq⟩ := ih h
      exact ⟨e, span, List.mem_cons_of_mem _ hmem, heq⟩
    cases s with
    | literal text => exact behind (by rw [ofSegments_literal, takenDepth])
    | unterminated span => exact behind (by rw [ofSegments_unterminated, takenDepth])
    | placeholder e span =>
      have hmax := takenDepth_ofSegments_placeholder (r := r) base e span l
      rcases Nat.le_total ((ofSegments base l).takenDepth r) (e.takenDepth r) with hle | hle
      · exact ⟨e, span, List.mem_cons_self, by rw [hmax, Nat.max_eq_left hle]⟩
      · exact behind (by rw [hmax, Nat.max_eq_right hle])

end Template

theorem TakesNested.le_takenDepth {t : Text} {k : Nat} (h : TakesNested r t k) :
    k ≤ (Template.ofText t).takenDepth r := by
  induction h with
  | none t => exact Nat.zero_le _
  | @inside t pattern replacement e span k hmem hpattern hname htaken _ ih =>
    rw [Template.ofText_eq_ofSegments]
    calc k + 1 ≤ (Template.ofText pattern).takenDepth r + 1 := Nat.succ_le_succ ih
      _ = e.takenDepth r := (Expression.takenDepth_of_takesPattern hpattern hname htaken).symm
      _ ≤ _ := Template.takenDepth_le_ofSegments hmem

theorem takesNested_takenDepth (r : Resolver) (t : Text) :
    TakesNested r t ((Template.ofText t).takenDepth r) := by
  induction hn : t.byteLength using Nat.strongRecOn generalizing t with
  | ind n ih =>
    rcases Nat.eq_zero_or_pos ((Template.ofText t).takenDepth r) with hzero | hpos
    · rw [hzero]
      exact .none t
    rw [Template.ofText_eq_ofSegments] at hpos ⊢
    obtain ⟨e, span, hmem, heq⟩ := Template.exists_takenDepth_eq_ofSegments hpos
    rw [← heq] at hpos ⊢
    obtain ⟨pattern, replacement, hpattern, hname, htaken⟩ :=
      Expression.exists_of_takenDepth_pos hpos
    have hlen := byteLength_pattern_add_le hmem hpattern
    rw [Expression.takenDepth_of_takesPattern hpattern hname htaken]
    exact .inside hmem hpattern hname htaken (ih pattern.byteLength (by omega) pattern rfl)

theorem isGreatest_takenDepth (r : Resolver) (t : Text) :
    IsGreatest {k | TakesNested r t k} ((Template.ofText t).takenDepth r) :=
  ⟨takesNested_takenDepth r t, fun _ h => h.le_takenDepth⟩

/-! ### Runs that are cut off -/

/-- The run `s` is the run `u` under a limit that leaves `room` levels, where `n` are needed. -/
structure CutOff (limit room n : Nat) (s u : Run (Halt Empty) Text) : Prop where
  /-- Without a limit the run ends. -/
  succeeds : ∃ out, u.result = .ok out
  /-- With room enough nothing changes. -/
  fits : n ≤ room → s = u
  /-- Otherwise the run does what it does without a limit, up to some point, and fails there. -/
  stops : room < n → s.result = .error (.tooDeep limit) ∧ s.events <+: u.events

namespace CutOff

variable {limit room room' n n' : Nat} {s s' u u' : Run (Halt Empty) Text}

theorem pure (text : Text) : CutOff limit room 0 (Run.pure text) (Run.pure text) :=
  ⟨⟨text, rfl⟩, fun _ => rfl, fun h => absurd h (Nat.not_lt_zero _)⟩

theorem after (event : Event) (h : CutOff limit room n s u) :
    CutOff limit room n (s.after event) (u.after event) where
  succeeds := h.succeeds
  fits hle := congrArg (Run.after event) (h.fits hle)
  stops hlt := ⟨(h.stops hlt).1, List.prefix_cons_inj event |>.2 (h.stops hlt).2⟩

theorem succeeds_iff (h : CutOff limit room n s u) : (∃ out, s.result = .ok out) ↔ n ≤ room := by
  constructor
  · rintro ⟨out, hout⟩
    by_contra hlt
    rw [(h.stops (Nat.lt_of_not_le hlt)).1] at hout
    cases hout
  · intro hle
    rw [h.fits hle]
    exact h.succeeds

/-- Only whether there is room enough decides. -/
theorem of_iff (h : CutOff limit room n s u) (hiff : n' ≤ room' ↔ n ≤ room) :
    CutOff limit room' n' s u where
  succeeds := h.succeeds
  fits hle := h.fits (hiff.1 hle)
  stops hlt := h.stops (Nat.lt_of_not_le fun hle => Nat.not_le_of_lt hlt (hiff.2 hle))

/-- Two parts of a run have the same room, and the first one that needs more stops the run. -/
theorem append (h : CutOff limit room n s u) (h' : CutOff limit room n' s' u') :
    CutOff limit room (max n n') (s.append s') (u.append u') := by
  obtain ⟨out, hu⟩ := h.succeeds
  obtain ⟨out', hu'⟩ := h'.succeeds
  have happend : u.append u' = ⟨u.events ++ u'.events, .ok (out ++ out')⟩ := by
    simp only [Run.append, hu, hu', Except.map]
  constructor
  · exact ⟨out ++ out', by rw [happend]⟩
  · intro hle
    rw [h.fits ((Nat.le_max_left n n').trans hle), h'.fits ((Nat.le_max_right n n').trans hle)]
  · intro hlt
    rw [happend]
    by_cases hroom : n ≤ room
    · obtain ⟨hresult', hevents'⟩ := h'.stops (by omega)
      rw [h.fits hroom]
      simp only [Run.append, hu, hresult', Except.map]
      exact ⟨trivial, (List.prefix_append_right_inj u.events).2 hevents'⟩
    · obtain ⟨hresult, hevents⟩ := h.stops (Nat.lt_of_not_le hroom)
      simp only [Run.append, hresult]
      exact ⟨trivial, hevents.trans (List.prefix_append _ _)⟩

end CutOff

/-- A limit leaves room for the patterns of a template that stands inside `depth` others, or
cuts its expansion off. -/
theorem Template.cutOff_expandAt (r : Resolver) (limit : Nat) (t : Template) (depth : Nat) :
    CutOff limit (limit - depth) (t.takenDepth r) (t.expandAt r.total (some limit) depth)
      (t.expandAt r.total none depth) := by
  induction t generalizing depth with
  | done => exact CutOff.pure []
  | literal text rest ih =>
    have hboth := (CutOff.pure text).append (ih depth)
    rwa [Nat.zero_max] at hboth
  | placeholder e span rest ih =>
    have hfirst : CutOff limit (limit - depth) 0 (e.ask r.total Run.pure)
        (e.ask r.total Run.pure) := by
      rw [Expression.ask, Resolver.total]
      refine CutOff.after _ ?_
      cases r e.name with
      | none => exact (CutOff.pure _).after _
      | some replacement => exact CutOff.pure replacement
    have hboth := hfirst.append (ih depth)
    rwa [Nat.zero_max] at hboth
  | conditional e span pattern rest ihp ih =>
    refine CutOff.append ?_ (ih depth)
    rw [Expression.ask, Expression.ask, Resolver.total]
    -- The name is asked for before the limit is looked at.
    refine CutOff.after _ ?_
    cases r e.name with
    | none => exact (CutOff.pure _).after _
    | some replacement =>
      by_cases htaken : e.takesPattern replacement
      · simp only [htaken, if_true, withinLimit]
        by_cases hlimit : limit ≤ depth
        · rw [if_pos hlimit]
          refine ⟨(ihp (depth + 1)).succeeds, ?_, fun _ => ⟨rfl, List.nil_prefix⟩⟩
          intro hle
          omega
        · rw [if_neg hlimit]
          exact (ihp (depth + 1)).of_iff (by omega)
      · simp only [htaken, Bool.false_eq_true, if_false]
        exact CutOff.pure []
  | unterminated span rest ih => exact (ih depth).after _

/-- **A limit is large enough from the depth on to which patterns are taken inside each other**, and
that is at most a fifth of the bytes of the template. Then it changes nothing. A smaller limit makes
the expansion fail, after questions that it asks without a limit too. -/
theorem takenDepth_is_threshold (t : Text) (r : Resolver) :
    let depth := (Template.ofText t).takenDepth r
    let unlimited := expandText r.total none t
    IsGreatest {k | TakesNested r t k} depth ∧ depth ≤ t.byteLength / 5 ∧
    (∃ out, unlimited.result = .ok out) ∧
      ∀ limit,
        let limited := expandText r.total (some limit) t
        ((∃ out, limited.result = .ok out) ↔ depth ≤ limit) ∧
          (depth ≤ limit → limited = unlimited) ∧
          (limit < depth →
            limited.result = .error (.tooDeep limit) ∧
              ((Processor.mk (some limit)).process (some t) r).result =
                .error (.depthExceeded limit) ∧
              limited.names <+: unlimited.names) := by
  intro depth unlimited
  have hgreatest : IsGreatest {k | TakesNested r t k} depth := isGreatest_takenDepth r t
  have hlen : 5 * depth ≤ t.byteLength := TakesNested.mul_le_byteLength hgreatest.1
  have hcut (limit : Nat) :
      CutOff limit limit depth (expandText r.total (some limit) t) unlimited :=
    Template.cutOff_expandAt r limit (Template.ofText t) 0
  refine ⟨hgreatest, by omega, (hcut 0).succeeds, ?_⟩
  intro limit limited
  refine ⟨(hcut limit).succeeds_iff, (hcut limit).fits, ?_⟩
  intro hlt
  obtain ⟨hresult, hevents⟩ := (hcut limit).stops hlt
  refine ⟨hresult, ?_, hevents.filterMap Event.name?⟩
  rw [Processor.process, Processor.expand, Run.mapError, hresult]
  rfl

end Interpolation

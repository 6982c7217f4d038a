import Interpolation.Proofs.Expressions
import Interpolation.Proofs.Seams
import Interpolation.Proofs.Unanswered

/-!
# Interpolation.Proofs.Negation

A placeholder with a pattern, and **its negation** with the same pattern.

Both ask for the same name, whatever padding stands around it (`Expression.parse_plain`,
`Expression.parse_negated`). An answer makes exactly one of them enter its pattern, since an answer
is empty or it is not. So both behind each other write what the pattern alone writes. Without an
answer both are kept, and the pattern is not entered (`negation_complements`).
-/

namespace Interpolation

variable {r : Resolver}

/-! ### The two bodies -/

/-- A body whose name is not negated. -/
theorem Expression.parse_plain {n : Text} (hne : n ≠ []) (hmark : '?' ∉ n)
    (hbang : n.trimPadding.head? ≠ some '!') (p : Text) :
    parse (n ++ '?' :: p) = ⟨n ++ '?' :: p, n.trimPadding, false, some p⟩ := by
  rw [parse_append hne hmark, splitInversion_of_head?_ne hbang]

/-- The same body negated. -/
theorem Expression.parse_negated {n : Text} (hmark : '?' ∉ n) (p : Text) :
    parse ('!' :: n ++ '?' :: p) = ⟨'!' :: n ++ '?' :: p, n.trimPadding, true, some p⟩ := by
  have hmark' : '?' ∉ '!' :: n := by simpa using hmark
  rw [parse_append (List.cons_ne_nil _ _) hmark', splitInversion_bang]

/-! ### One placeholder -/

/-- Expanding `t` asks for `name` and goes on as expanding `pattern` does. -/
structure EntersPattern (r : Resolver) (name pattern t : Text) : Prop where
  /-- The text is that of the pattern. -/
  result : (expandText r.total none t).result = (expandText r.total none pattern).result
  /-- The questions are the name and those of the pattern. -/
  names : (expandText r.total none t).names = name :: (expandText r.total none pattern).names

/-- Expanding `t` asks for `name`, and for nothing else, and writes nothing. -/
structure PassesOver (r : Resolver) (name t : Text) : Prop where
  /-- Nothing is written. -/
  result : (expandText r.total none t).result = .ok []
  /-- Only the name is asked for. -/
  names : (expandText r.total none t).names = [name]

section OnePlaceholder

variable {raw name pattern value : Text} {invert : Bool}

/-- The tree of a placeholder with a pattern. -/
theorem Template.exists_ofText_written (hr : BraceBalanced raw)
    (hp : (Expression.parse raw).pattern = some pattern) :
    ∃ span base, ofText (Expression.parse raw).written =
      .conditional (Expression.parse raw) span (ofTextAt base pattern) .done := by
  rw [ofText, ofTextAt_eq, segments_written hr, ofSegments_conditional hp, ofSegments_nil]
  exact ⟨_, _, rfl⟩

theorem entersPattern_written (hr : BraceBalanced raw)
    (hparse : Expression.parse raw = ⟨raw, name, invert, some pattern⟩)
    (hname : r name = some value) (htaken : invert = value.isEmpty) :
    EntersPattern r name pattern (Expression.parse raw).written := by
  obtain ⟨span, base, htree⟩ := Template.exists_ofText_written hr (by rw [hparse])
  have htakes : (Expression.parse raw).takesPattern value := by
    rw [hparse, Expression.takesPattern, htaken, beq_self_eq_true]
  obtain rfl : (Expression.parse raw).name = name := congrArg Expression.name hparse
  constructor
  · rw [Template.result_expandText_total, Template.result_expandText_total, htree, Template.output]
    simp only [hname, htakes, if_true, Template.output, List.append_nil, Template.output_ofTextAt]
  · rw [Template.names_expandText_total, Template.names_expandText_total, htree,
      Template.names_conditional]
    simp only [hname, htakes, if_true, Template.names_done, List.append_nil,
      Template.names_ofTextAt]

theorem passesOver_written (hr : BraceBalanced raw)
    (hparse : Expression.parse raw = ⟨raw, name, invert, some pattern⟩)
    (hname : r name = some value) (htaken : invert ≠ value.isEmpty) :
    PassesOver r name (Expression.parse raw).written := by
  obtain ⟨span, base, htree⟩ := Template.exists_ofText_written hr (by rw [hparse])
  have htakes : (Expression.parse raw).takesPattern value = false := by
    rw [hparse, Expression.takesPattern, beq_false_of_ne htaken]
  obtain rfl : (Expression.parse raw).name = name := congrArg Expression.name hparse
  constructor
  · rw [Template.result_expandText_total, htree, Template.output]
    simp only [hname, htakes, Bool.false_eq_true, if_false, Template.output, List.append_nil]
  · rw [Template.names_expandText_total, htree, Template.names_conditional]
    simp only [hname, htakes, Bool.false_eq_true, if_false, Template.names_done, List.append_nil]

end OnePlaceholder

/-! ### Two placeholders behind each other -/

theorem EntersPattern.output_eq {name pattern t : Text} (h : EntersPattern r name pattern t) :
    (Template.ofText t).output r = (Template.ofText pattern).output r := by
  have hresult := h.result
  rw [Template.result_expandText_total, Template.result_expandText_total] at hresult
  exact Except.ok.inj hresult

theorem PassesOver.output_eq {name t : Text} (h : PassesOver r name t) :
    (Template.ofText t).output r = [] := by
  have hresult := h.result
  rw [Template.result_expandText_total] at hresult
  exact Except.ok.inj hresult

/-- A pattern that one of two placeholders enters is all that both write, whichever stands first. -/
theorem result_of_enters_and_passes {name pattern a b : Text} (ha : SelfContained a)
    (hb : SelfContained b) (henters : EntersPattern r name pattern a)
    (hpasses : PassesOver r name b) :
    ∀ t ∈ [a ++ b, b ++ a], (expandText r.total none t).result =
      (expandText r.total none pattern).result := by
  have hfirst : (Template.ofText (a ++ b)).output r = (Template.ofText pattern).output r := by
    rw [ha.output_append, henters.output_eq, hpasses.output_eq, List.append_nil]
  have hsecond : (Template.ofText (b ++ a)).output r = (Template.ofText pattern).output r := by
    rw [hb.output_append, henters.output_eq, hpasses.output_eq, List.nil_append]
  intro t ht
  rw [Template.result_expandText_total, Template.result_expandText_total]
  rcases List.mem_pair.1 ht with rfl | rfl
  · rw [hfirst]
  · rw [hsecond]

theorem segments_written_append {a b : Text} (ha : BraceBalanced a) (hb : BraceBalanced b) :
    ∃ span span', segments ((Expression.parse a).written ++ (Expression.parse b).written) =
      [.placeholder (Expression.parse a) span, .placeholder (Expression.parse b) span'] := by
  have hread := segmentsFrom_placeholder_append ha (Expression.parse b).written 0
  rw [segmentsFrom_eq_map_shift (Expression.parse b).written, segments_written hb] at hread
  exact ⟨_, _, hread⟩

/-- Two placeholders of one name without an answer are kept. -/
theorem kept_written_append {a b name : Text} (ha : BraceBalanced a) (hb : BraceBalanced b)
    (hname : (Expression.parse a).name = name) (hname' : (Expression.parse b).name = name)
    (hnone : r name = none) :
    let t := (Expression.parse a).written ++ (Expression.parse b).written
    (expandText r.total none t).result = .ok t ∧
      (expandText r.total none t).events = [.asked name, .kept name, .asked name, .kept name] := by
  intro t
  obtain ⟨span, span', hsegments⟩ := segments_written_append ha hb
  have hunanswered : ∀ asked ∈ (segments t).filterMap Segment.name?, r asked = none := by
    rw [hsegments]
    simp [Segment.name?, hname, hname', hnone]
  have hcomplete : UpToUnterminated t t := by
    refine .inl ⟨?_, rfl⟩
    rw [hsegments]
    simp [Segment.isUnterminated]
  refine ⟨hcomplete.result_of_unanswered hunanswered none, ?_⟩
  rw [events_of_unanswered hunanswered, hsegments]
  simp [Segment.unanswered, hname, hname']

/-- **A placeholder and its negation are complements.** If the name has an answer, exactly one of
the two enters the pattern: the negation if the answer is empty, the placeholder itself if it is
not. The other one writes nothing. Behind each other, in either order, they write what the
pattern alone writes. If the name has no answer, both are kept as they stand, and nothing is
asked for but the name. -/
theorem negation_complements {n p : Text} (hne : n ≠ []) (hmark : '?' ∉ n)
    (hbang : n.trimPadding.head? ≠ some '!') (hbraces : BraceBalanced (n ++ '?' :: p))
    (r : Resolver) :
    let name := n.trimPadding
    let plain : Text := '$' :: '{' :: (n ++ '?' :: p ++ ['}'])
    let negated : Text := '$' :: '{' :: '!' :: (n ++ '?' :: p ++ ['}'])
    let run := fun t => expandText r.total none t
    (∀ value, r name = some value →
      (if value = [] then EntersPattern r name p negated ∧ PassesOver r name plain
        else EntersPattern r name p plain ∧ PassesOver r name negated) ∧
      (∃ out, (run p).result = .ok out ∧
        ∀ t ∈ [plain ++ negated, negated ++ plain], (run t).result = .ok out) ∧
      (run (plain ++ negated)).names = (run plain).names ++ (run negated).names ∧
      (run (negated ++ plain)).names = (run negated).names ++ (run plain).names) ∧
    (r name = none →
      ∀ t ∈ [plain ++ negated, negated ++ plain],
        (run t).result = .ok t ∧
          (run t).events = [.asked name, .kept name, .asked name, .kept name]) := by
  intro name plain negated run
  have hbraces' : BraceBalanced ('!' :: n ++ '?' :: p) := hbraces.cons (by decide) (by decide)
  have hplain := Expression.parse_plain hne hmark hbang p
  have hnegated := Expression.parse_negated hmark p
  have hself : SelfContained plain := selfContained_written hbraces
  have hself' : SelfContained negated := selfContained_written hbraces'
  constructor
  · intro value hvalue
    have hout : (run p).result = .ok ((Template.ofText p).output r) :=
      Template.result_expandText_total r p
    have hasked : (run (plain ++ negated)).names = (run plain).names ++ (run negated).names ∧
        (run (negated ++ plain)).names = (run negated).names ++ (run plain).names := by
      simp only [run, Template.names_expandText_total]
      exact ⟨hself.names_append negated r, hself'.names_append plain r⟩
    cases value with
    | nil =>
      have henters : EntersPattern r name p negated :=
        entersPattern_written hbraces' hnegated hvalue rfl
      have hpasses : PassesOver r name plain :=
        passesOver_written hbraces hplain hvalue Bool.false_ne_true
      have hboth := result_of_enters_and_passes hself' hself henters hpasses
      refine ⟨⟨henters, hpasses⟩, ⟨_, hout, fun t ht => (hboth t ?_).trans hout⟩, hasked⟩
      exact List.mem_pair.2 (List.mem_pair.1 ht).symm
    | cons c value =>
      have henters : EntersPattern r name p plain := entersPattern_written hbraces hplain hvalue rfl
      have hpasses : PassesOver r name negated := passesOver_written hbraces' hnegated hvalue nofun
      have hboth := result_of_enters_and_passes hself hself' henters hpasses
      exact ⟨⟨henters, hpasses⟩, ⟨_, hout, fun t ht => (hboth t ht).trans hout⟩, hasked⟩
  · intro hnone t ht
    rcases List.mem_pair.1 ht with rfl | rfl
    · exact kept_written_append hbraces hbraces' (by rw [hplain]) (by rw [hnegated]) hnone
    · exact kept_written_append hbraces' hbraces (by rw [hnegated]) (by rw [hplain]) hnone

/-- A brace is opened in the name and closed in the pattern. The name has an empty answer, so the
negation enters the pattern, which asks for another name. -/
theorem negation_complements_across_mark :
    let n : Text := ['\t', '{', 'a']
    let p : Text := ['}', '$', '{', 'b', '}']
    let plain : Text := '$' :: '{' :: (n ++ '?' :: p ++ ['}'])
    let negated : Text := '$' :: '{' :: '!' :: (n ++ '?' :: p ++ ['}'])
    let r : Resolver := fun name => if name = ['{', 'a'] then some [] else some ['v']
    (n ≠ [] ∧ '?' ∉ n ∧ n.trimPadding.head? ≠ some '!' ∧ BraceBalanced (n ++ '?' :: p) ∧
      r n.trimPadding = some []) ∧
      EntersPattern r ['{', 'a'] p negated ∧ PassesOver r ['{', 'a'] plain ∧
      (expandText r.total none (plain ++ negated)).result = .ok ['}', 'v'] ∧
      (expandText r.total none (negated ++ plain)).names = [['{', 'a'], ['b'], ['{', 'a']] := by
  intro n p plain negated r
  have hbraces : BraceBalanced (n ++ '?' :: p) := by decide +kernel
  obtain ⟨⟨henters, hpasses⟩, ⟨out, hout, hboth⟩, -, hnames⟩ :=
    (negation_complements (n := n) (p := p) (by decide) (by decide) (by decide) hbraces r).1 [] rfl
  have hpattern : (expandText r.total none p).result = .ok ['}', 'v'] := by decide +kernel
  obtain rfl := Except.ok.inj (hout.symm.trans hpattern)
  refine ⟨⟨by decide, by decide, by decide, hbraces, rfl⟩, henters, hpasses,
    hboth _ List.mem_cons_self, ?_⟩
  exact hnames.trans (by decide +kernel)

end Interpolation

import Interpolation.Proofs.IntegerNames
import Interpolation.Proofs.LayeredExpansion
import Interpolation.Proofs.NestingDepth

/-!
# Interpolation.Proofs.PassOrder

**The order of two passes.**

Arguments come first because an argument may bring in a key. When nothing that is inserted has a
`$`, and no literal of the template ends with one, the second pass finds just the placeholders that
the first one left, and each placeholder is answered by one of the two resolvers at most: an integer
is no key. So the passes can change places (`passes_in_either_order`).

A pattern would show the order: one that the first pass takes is read by both passes, one that
the second pass takes by the second alone. Hence the template has none (`Patternless`), and then
no limit matters either.
-/

namespace Interpolation

/-- No placeholder of the text has a pattern. -/
def Patternless (t : Text) : Prop := ∀ e span, .placeholder e span ∈ segments t → e.pattern = none

variable {A C : Resolver} {t : Text}

theorem AllPlaceholders.patternless (h : AllPlaceholders (fun e => e.pattern = none) t) :
    Patternless t :=
  fun _ _ hmem => (allPlaceholders_iff 0).1 h _ hmem

/-! ### Limits -/

theorem Patternless.takenDepth_eq_zero (h : Patternless t) (r : Resolver) :
    (Template.ofText t).takenDepth r = 0 := by
  by_contra hne
  have hpos := Nat.pos_of_ne_zero hne
  rw [Template.ofText_eq_ofSegments] at hpos
  obtain ⟨e, span, hmem, heq⟩ := Template.exists_takenDepth_eq_ofSegments hpos
  obtain ⟨pattern, -, hpattern, -⟩ := Expression.exists_of_takenDepth_pos (heq.symm ▸ hpos)
  rw [h e span hmem] at hpattern
  cases hpattern

/-- Where no pattern can be taken every limit is enough. -/
theorem Patternless.result_expand (h : Patternless t) (p : Processor) (r : Resolver) :
    (p.expand t r).result = .ok ((Template.ofText t).output r) := by
  have hunlimited : expandText r.total p.maxDepth t = expandText r.total none t := by
    cases p.maxDepth with
    | none => rfl
    | some limit =>
      refine (Template.cutOff_expandAt r limit (Template.ofText t) 0).fits ?_
      rw [h.takenDepth_eq_zero r]
      exact Nat.zero_le _
  rw [Processor.expand, Run.mapError, hunlimited, Template.result_expandText_total]
  rfl

/-! ### What a pass writes -/

/-- What replaces a placeholder without a pattern. -/
theorem Template.output_ofSegments_placeholder {e : Expression} (hp : e.pattern = none)
    (r : Resolver) (base : Nat) (span : Span) (l : List Segment) :
    (ofSegments base (.placeholder e span :: l)).output r =
      (r e.name).getD e.written ++ (ofSegments base l).output r := by
  rw [ofSegments_placeholder hp, output]
  cases r e.name <;> rfl

theorem getLast?_ne_of_literal {lead : Text} {c : Char}
    (h : ∀ text, .literal text ∈ literalSegments lead → text.getLast? ≠ some c) :
    lead.getLast? ≠ some c := by
  unfold literalSegments at h
  split at h
  · rename_i hnil
    simp [hnil]
  · exact h lead List.mem_cons_self

/-- What replaces a placeholder has no pattern in it, and can stand before anything. -/
theorem allPlaceholders_replacement {raw : Text} (hr : BraceBalanced raw)
    (hp : (Expression.parse raw).pattern = none)
    (hA : ∀ name text, A name = some text → '$' ∉ text) :
    let text := (A (Expression.parse raw).name).getD (Expression.parse raw).written
    AllPlaceholders (fun e => e.pattern = none) text ∧ text.getLast? ≠ some '$' := by
  cases ha : A (Expression.parse raw).name with
  | none => exact ⟨allPlaceholders_written hr hp, (selfContained_written hr).last_ne⟩
  | some text =>
    have hdollar := hA _ _ ha
    exact ⟨.plain (not_hasOpening_of_not_mem hdollar), (selfContained_of_not_mem hdollar).last_ne⟩

/-- A pass over a text without patterns writes a text without patterns. -/
theorem allPlaceholders_output {start : Nat} (hA : ∀ name text, A name = some text → '$' ∉ text)
    (hplain : ∀ e span, .placeholder e span ∈ segmentsFrom start t → e.pattern = none)
    (hlast : ∀ text, .literal text ∈ segmentsFrom start t → text.getLast? ≠ some '$') (base : Nat) :
    AllPlaceholders (fun e => e.pattern = none)
      ((Template.ofSegments base (segmentsFrom start t)).output A) := by
  induction t using Text.segmentInduction generalizing start with
  | plain t ht =>
    rw [segmentsFrom_of_not_hasOpening ht, Template.output_ofSegments_literalSegments]
    exact .plain ht
  | unclosed lead body hl hb =>
    rw [segmentsFrom_unclosed hl hb, Template.ofSegments_append, Template.output_append,
      Template.output_ofSegments_literalSegments, Template.ofSegments_unterminated,
      Template.ofSegments_nil, Template.output, Template.output, List.append_nil]
    exact .plain hl
  | closed lead raw rest hl hr ih =>
    have hp := hplain _ _ ((mem_segmentsFrom_closed hl hr).2 (.inr (.inl rfl)))
    have hlead := getLast?_ne_of_literal fun text hs =>
      hlast text ((mem_segmentsFrom_closed hl hr).2 (.inl hs))
    have hrest :=
      ih (fun e span hs => hplain e span ((mem_segmentsFrom_closed hl hr).2 (.inr (.inr hs))))
        fun text hs => hlast text ((mem_segmentsFrom_closed hl hr).2 (.inr (.inr hs)))
    obtain ⟨hall, hend⟩ := allPlaceholders_replacement hr hp hA
    rw [segmentsFrom_closed hl hr, Template.ofSegments_append, Template.output_append,
      Template.output_ofSegments_literalSegments, Template.output_ofSegments_placeholder hp]
    -- Neither of the two seams is between a `$` and a `{`.
    exact (AllPlaceholders.plain hl).append (hall.append hrest fun hseam => hend hseam.1)
      fun hseam => hlead hseam.1

/-! ### One pass after the other -/

namespace Template

theorem mem_of_mem_literals {l : List Segment}
    (hplain : ∀ e span, .placeholder e span ∈ l → e.pattern = none) {base : Nat} {text : Text}
    (h : text ∈ (ofSegments base l).literals) : .literal text ∈ l := by
  induction l with
  | nil =>
    rw [ofSegments_nil] at h
    cases h
  | cons s l ih =>
    have hrest := ih fun e span hs => hplain e span (List.mem_cons_of_mem _ hs)
    cases s with
    | literal text' =>
      rw [ofSegments_literal, literals] at h
      rcases List.mem_cons.1 h with rfl | h
      · exact List.mem_cons_self
      · exact List.mem_cons_of_mem _ (hrest h)
    | placeholder e span =>
      rw [ofSegments_placeholder (hplain e span List.mem_cons_self)] at h
      exact List.mem_cons_of_mem _ (hrest h)
    | unterminated span =>
      rw [ofSegments_unterminated] at h
      exact List.mem_cons_of_mem _ (hrest h)

/-- A placeholder without a pattern does not show which of two resolvers comes first, if only one
of them knows its name. -/
theorem layered_comm (hapart : ∀ name, A name = none ∨ C name = none) {l : List Segment}
    (hplain : ∀ e span, .placeholder e span ∈ l → e.pattern = none) (base : Nat) :
    (ofSegments base l).layered A C = (ofSegments base l).layered C A := by
  induction l with
  | nil => rw [ofSegments_nil, layered, layered]
  | cons s l ih =>
    have hrest := ih fun e span hs => hplain e span (List.mem_cons_of_mem _ hs)
    cases s with
    | literal text => rw [ofSegments_literal, layered, layered, hrest]
    | placeholder e span =>
      rw [ofSegments_placeholder (hplain e span List.mem_cons_self), layered, layered, hrest]
      rcases hapart e.name with hnone | hnone
      · rw [hnone]
      · rw [hnone]
    | unterminated span => rw [ofSegments_unterminated, layered, layered, hrest]

end Template

/-- Two passes over a text without patterns succeed, and are one layered pass. -/
theorem two_passes_of_patternless (hA : ∀ name text, A name = some text → '$' ∉ text)
    (hplain : Patternless t) (hlast : ∀ text, .literal text ∈ segments t → text.getLast? ≠ some '$')
    (p : Processor) (C : Resolver) :
    ((p.expand t A).bind fun u => p.expand u C).result = .ok ((Template.ofText t).layered A C) := by
  have hmerge : (Template.ofText t).PassesMerge A C := by
    rw [Template.ofText_eq_ofSegments]
    exact Template.passesMerge hA t 0 0 fun text hs =>
      hlast text (Template.mem_of_mem_literals hplain hs)
  have hwritten : Patternless ((Template.ofText t).output A) := by
    rw [Template.ofText_eq_ofSegments]
    exact (allPlaceholders_output hA hplain hlast 0).patternless
  rw [Run.bind, hplain.result_expand p A]
  exact (hwritten.result_expand p C).trans (congrArg Except.ok hmerge.output_eq)

/-! ### Arguments and a configuration -/

/-- What a configuration answers is stored in it, or empty. -/
theorem Resolver.not_mem_of_configuration_eq_some {c : Option Configuration} {name text : Text}
    (hstored : ∀ stored, c = some stored →
      ∀ key value, stored.get? key = some (some value) → '$' ∉ value)
    (h : Resolver.configuration c name = some text) : '$' ∉ text := by
  cases c with
  | none => cases h
  | some stored =>
    rw [Configuration.resolver_eq] at h
    split at h
    · cases h
    · obtain ⟨value, hvalue, rfl⟩ := Option.map_eq_some_iff.1 h
      cases value with
      | none => simp
      | some value => exact hstored stored rfl name value hvalue

/-- Expand configuration keys, then arguments in the result. -/
def Processor.processReversed (p : Processor) (t : Text) (c : Option Configuration)
    (args : List Value) : Run ProcessError Text :=
  (p.processConfiguration t c).bind fun u => p.processArguments u args

/-- **Arguments and configuration in either order.** No placeholder of the template has a pattern
and no literal of it ends with `$`; no argument and no stored text has a `$`. Then both orders
succeed under every limit, and write the same text. -/
theorem passes_in_either_order {t : Text} {c : Option Configuration} {args : List Value}
    (hplain : ∀ e span, .placeholder e span ∈ segments t → e.pattern = none)
    (hlast : ∀ text, .literal text ∈ segments t → text.getLast? ≠ some '$')
    (hargs : ∀ v ∈ args, '$' ∉ v.toText .commaSpace)
    (hstored : ∀ stored, c = some stored →
      ∀ key value, stored.get? key = some (some value) → '$' ∉ value)
    (p : Processor) :
    ∃ out, (p.processBoth t c args).result = .ok out ∧
      (p.processReversed t c args).result = .ok out := by
  have hA : ∀ name text, Resolver.arguments args name = some text → '$' ∉ text := by
    intro name text h
    obtain ⟨v, hv, rfl⟩ := Resolver.exists_of_arguments_eq_some h
    exact hargs v hv
  have hC : ∀ name text, Resolver.configuration c name = some text → '$' ∉ text :=
    fun name text h => Resolver.not_mem_of_configuration_eq_some hstored h
  have hcomm : (Template.ofText t).layered (.arguments args) (.configuration c) =
      (Template.ofText t).layered (.configuration c) (.arguments args) := by
    rw [Template.ofText_eq_ofSegments]
    exact Template.layered_comm (Resolver.arguments_or_configuration_eq_none args c) hplain 0
  refine ⟨(Template.ofText t).layered (.arguments args) (.configuration c), ?_, ?_⟩
  · exact two_passes_of_patternless hA hplain hlast p _
  · rw [hcomm]
    exact two_passes_of_patternless hC hplain hlast p _

/-- Braces of the template stand around an argument that has braces too, and the name
that nobody knows stays. -/
theorem passes_in_either_order_with_braces :
    let t : Text :=
      ['{', '$', '{', '0', '}', '}', '$', '{', 'k', '}', '$', 'x', '$', '{', ' ', 'q', '}']
    let args : List Value := [.text ['{', 'k', '}']]
    let c : Configuration := Configuration.empty.insert ['k'] (some ['{', '0', '}'])
    let p : Processor := ⟨some 0⟩
    (∀ e span, .placeholder e span ∈ segments t → e.pattern = none) ∧
      (∀ text, .literal text ∈ segments t → text.getLast? ≠ some '$') ∧
      (∀ v ∈ args, '$' ∉ v.toText .commaSpace) ∧
      (∀ key value, c.get? key = some (some value) → '$' ∉ value) ∧
      (p.processBoth t (some c) args).result = (p.processReversed t (some c) args).result ∧
      (p.processBoth t (some c) args).result =
        .ok ['{', '{', 'k', '}', '}', '{', '0', '}', '$', 'x', '$', '{', ' ', 'q', '}'] := by
  intro t args c p
  have hsegments : segments t =
      [.literal ['{'], .placeholder (.parse ['0']) ⟨1, 5⟩, .literal ['}'],
        .placeholder (.parse ['k']) ⟨6, 10⟩, .literal ['$', 'x'],
        .placeholder (.parse [' ', 'q']) ⟨12, 17⟩] := by decide +kernel
  have hplain : ∀ e span, .placeholder e span ∈ segments t → e.pattern = none := by
    intro e span h
    simp only [hsegments, List.mem_cons, List.not_mem_nil, Segment.placeholder.injEq,
      reduceCtorEq, false_or, or_false] at h
    rcases h with ⟨rfl, -⟩ | ⟨rfl, -⟩ | ⟨rfl, -⟩ <;> decide +kernel
  have hlast : ∀ text, .literal text ∈ segments t → text.getLast? ≠ some '$' := by
    intro text h
    simp only [hsegments, List.mem_cons, List.not_mem_nil, Segment.literal.injEq,
      reduceCtorEq, false_or, or_false] at h
    rcases h with rfl | rfl | rfl <;> decide
  have hargs : ∀ v ∈ args, '$' ∉ v.toText .commaSpace := by decide +kernel
  have hstored : ∀ key value, c.get? key = some (some value) → '$' ∉ value := by
    intro key value h
    rw [Configuration.get?_insert, Configuration.get?_empty] at h
    split at h
    · obtain rfl := Option.some.inj (Option.some.inj h)
      decide
    · cases h
  obtain ⟨out, hboth, hreversed⟩ := passes_in_either_order hplain hlast hargs
    (fun stored hc => Option.some.inj hc ▸ hstored) p
  exact ⟨hplain, hlast, hargs, hstored, hboth.trans hreversed.symm, by decide +kernel⟩

end Interpolation

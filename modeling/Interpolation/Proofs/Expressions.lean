import Interpolation.Proofs.Segmentation
import Interpolation.Proofs.Trimming

/-!
# Interpolation.Proofs.Expressions

The parts of an **expression**, and the shortest text that has them.

The text between the braces of a placeholder is cut at its first `?`, unless it begins with one, and
what stands in front is a name with or without `!`. Padding is lost twice: around the whole of that,
and around the name behind `!`.

* `parse_append`, `parse_of_no_pattern`: what is read from a text with a pattern, and
  from one without.
* `splitInversion_bang`: a `!` in front of a text negates its name and changes nothing
  else, padding or not.
* `Expression.canonical`: the name, `!` before it if it is negated, and the pattern. Reading it
  gives the same parts back, unless an empty name would leave the `?` in first position
  (`parts_and_canonical_text`).
-/

namespace Interpolation.Expression

/-! ### The pattern -/

theorem splitPattern_append {head : Text} (hne : head ≠ []) (hmark : '?' ∉ head) (pattern : Text) :
    splitPattern (head ++ '?' :: pattern) = (head, some pattern) := by
  cases head with
  | nil => exact absurd rfl hne
  | cons c head => rw [splitPattern, Text.cut_append hmark]

theorem splitPattern_of_no_pattern {raw : Text} (h : '?' ∉ raw ∨ raw.head? = some '?') :
    splitPattern raw = (raw, none) := by
  rcases h with h | h
  · rw [splitPattern, Text.cut_eq_none_iff.2 h]
  · obtain ⟨t, rfl⟩ := List.head?_eq_some_iff.1 h
    rfl

/-- A text has a `?` behind something else, or it has none or begins with one. -/
theorem pattern_cases (raw : Text) :
    (∃ head pattern, raw = head ++ '?' :: pattern ∧ '?' ∉ head ∧ head ≠ []) ∨
      '?' ∉ raw ∨ raw.head? = some '?' := by
  cases hcut : raw.cut '?' with
  | none => exact .inr (.inl (Text.cut_eq_none_iff.1 hcut))
  | some parts =>
    obtain ⟨head, pattern⟩ := parts
    obtain ⟨rfl, hmark⟩ := Text.eq_of_cut_eq_some hcut
    cases head with
    | nil => exact .inr (.inr rfl)
    | cons c head => exact .inl ⟨c :: head, pattern, rfl, hmark, List.cons_ne_nil c head⟩

theorem parse_append {head : Text} (hne : head ≠ []) (hmark : '?' ∉ head) (pattern : Text) :
    parse (head ++ '?' :: pattern) =
      ⟨head ++ '?' :: pattern, (splitInversion head).1, (splitInversion head).2, some pattern⟩ := by
  simp only [parse, splitPattern_append hne hmark]

theorem parse_of_no_pattern {raw : Text} (h : '?' ∉ raw ∨ raw.head? = some '?') :
    parse raw = ⟨raw, (splitInversion raw).1, (splitInversion raw).2, none⟩ := by
  simp only [parse, splitPattern_of_no_pattern h]

/-- A pattern begins behind the `?`. -/
theorem patternOffset_eq {e : Expression} {head pattern : Text} (hp : e.pattern = some pattern)
    (hraw : e.raw = head ++ '?' :: pattern) : e.patternOffset = some (head.byteLength + 1) := by
  have hmark : '?'.utf8Size = 1 := rfl
  rw [patternOffset, hp, hraw, Option.map_some, Text.byteLength_append, Text.byteLength_cons, hmark]
  congr 1
  omega

/-! ### The name -/

theorem splitInversion_eq (t : Text) :
    splitInversion t =
      if t.trimPadding.head? = some '!' then (Text.trimPadding t.trimPadding.tail, true)
      else (t.trimPadding, false) := by
  unfold splitInversion
  split
  · rename_i name heq
    rw [heq]
    rfl
  · rename_i hne
    rw [if_neg]
    intro hhead
    obtain ⟨name, hname⟩ := List.head?_eq_some_iff.1 hhead
    exact hne name hname

theorem trimPadding_cons {c : Char} (h : ¬ isPadding c) (t : Text) :
    Text.trimPadding (c :: t) = c :: Text.dropTrailing isPadding t := Text.trimBy_cons_of_not h t

/-- A `!` negates the name of the text behind it, whatever padding stands between them. -/
theorem splitInversion_bang (t : Text) : splitInversion ('!' :: t) = (t.trimPadding, true) := by
  rw [splitInversion_eq, trimPadding_cons (by decide), List.head?_cons, if_pos rfl, List.tail_cons,
    Text.trimPadding, Text.trimBy_dropTrailing]
  rfl

theorem splitInversion_of_head?_ne {t : Text} (h : t.trimPadding.head? ≠ some '!') :
    splitInversion t = (t.trimPadding, false) := by
  rw [splitInversion_eq, if_neg h]

theorem trimmed_splitInversion (t : Text) : (splitInversion t).1.Trimmed isPadding := by
  rw [splitInversion_eq]
  split <;> exact Text.trimmed_trimBy isPadding _

theorem mem_of_mem_splitInversion {t : Text} {c : Char} (h : c ∈ (splitInversion t).1) : c ∈ t := by
  rw [splitInversion_eq] at h
  split at h
  · exact Text.mem_of_mem_trimBy (List.mem_of_mem_tail (Text.mem_of_mem_trimBy h))
  · exact Text.mem_of_mem_trimBy h

/-- A name as it is written, with `!` before it if it is negated. -/
def writeName (name : Text) (invert : Bool) : Text := if invert then '!' :: name else name

theorem not_mem_writeName {t : Text} (h : '?' ∉ t) :
    '?' ∉ writeName (splitInversion t).1 (splitInversion t).2 := by
  have hname : '?' ∉ (splitInversion t).1 := fun hmem => h (mem_of_mem_splitInversion hmem)
  unfold writeName
  split
  · simpa using hname
  · exact hname

/-- A name is read back from what is written for it. -/
theorem splitInversion_writeName (t : Text) :
    splitInversion (writeName (splitInversion t).1 (splitInversion t).2) = splitInversion t := by
  have htrimmed : (splitInversion t).1.trimPadding = (splitInversion t).1 :=
    (trimmed_splitInversion t).trimBy_eq
  cases hinvert : (splitInversion t).2 with
  | true =>
    rw [writeName, if_pos rfl, splitInversion_bang, htrimmed, ← hinvert]
  | false =>
    have hname : (splitInversion t).1.head? ≠ some '!' := by
      rw [splitInversion_eq] at hinvert ⊢
      split at hinvert
      · cases hinvert
      · rename_i hne
        rwa [if_neg hne]
    rw [writeName, if_neg Bool.false_ne_true,
      splitInversion_of_head?_ne (htrimmed.symm ▸ hname), htrimmed, ← hinvert]

/-! ### The shortest text -/

/-- The shortest text of an expression: its name, with `!` before it if it is negated, and
its pattern behind `?`. -/
def canonical (e : Expression) : Text :=
  writeName e.name e.invert ++
    match e.pattern with
    | some pattern => '?' :: pattern
    | none => []

/-- Only one `!` is the negation, and padding around the name is not written. -/
example : (parse ['!', ' ', '!', 'x', ' ', '?', 'p']).canonical = ['!', '!', 'x', '?', 'p'] := by
  decide

/-- The expressions have the same name, negation and pattern. -/
structure SameParts (e e' : Expression) : Prop where
  /-- The names are the same. -/
  name : e.name = e'.name
  /-- Both are negated, or neither is. -/
  invert : e.invert = e'.invert
  /-- The patterns are the same. -/
  pattern : e.pattern = e'.pattern

/-- A text without a pattern is written without one. -/
theorem no_pattern_writeName {raw : Text} (h : '?' ∉ raw ∨ raw.head? = some '?') :
    '?' ∉ writeName (splitInversion raw).1 (splitInversion raw).2 ∨
      (writeName (splitInversion raw).1 (splitInversion raw).2).head? = some '?' := by
  rcases h with h | h
  · exact .inl (not_mem_writeName h)
  · -- The `?` in first position is no padding and no `!`.
    obtain ⟨t, rfl⟩ := List.head?_eq_some_iff.1 h
    have htrim := trimPadding_cons (by decide : ¬ isPadding '?') t
    rw [splitInversion_of_head?_ne (by rw [htrim, List.head?_cons]; decide), htrim]
    exact .inr rfl

theorem sameParts_canonical_of_no_pattern {raw : Text} (h : '?' ∉ raw ∨ raw.head? = some '?') :
    (parse (parse raw).canonical).SameParts (parse raw) := by
  have hcanonical : (parse raw).canonical =
      writeName (splitInversion raw).1 (splitInversion raw).2 := by
    rw [parse_of_no_pattern h, canonical, List.append_nil]
  rw [hcanonical, parse_of_no_pattern h, parse_of_no_pattern (no_pattern_writeName h)]
  exact ⟨congrArg Prod.fst (splitInversion_writeName raw),
    congrArg Prod.snd (splitInversion_writeName raw), rfl⟩

theorem sameParts_canonical_append {head pattern : Text} (hne : head ≠ []) (hmark : '?' ∉ head)
    (hname : writeName (splitInversion head).1 (splitInversion head).2 ≠ []) :
    (parse (parse (head ++ '?' :: pattern)).canonical).SameParts
      (parse (head ++ '?' :: pattern)) := by
  have hcanonical : (parse (head ++ '?' :: pattern)).canonical =
      writeName (splitInversion head).1 (splitInversion head).2 ++ '?' :: pattern := by
    rw [parse_append hne hmark, canonical]
  rw [hcanonical, parse_append hne hmark, parse_append hname (not_mem_writeName hmark)]
  exact ⟨congrArg Prod.fst (splitInversion_writeName head),
    congrArg Prod.snd (splitInversion_writeName head), rfl⟩

theorem writeName_eq_nil_iff {name : Text} {invert : Bool} :
    writeName name invert = [] ↔ name = [] ∧ invert = false := by
  cases invert <;> simp [writeName]

/-! ### What is read -/

theorem pattern_eq_some_iff {raw pattern : Text} :
    (parse raw).pattern = some pattern ↔
      ∃ head, raw = head ++ '?' :: pattern ∧ '?' ∉ head ∧ 0 < head.byteLength := by
  constructor
  · intro h
    obtain ⟨head, hraw, hmark, hne⟩ := raw_eq_of_pattern h
    exact ⟨head, hraw, hmark, Nat.pos_of_ne_zero (mt Text.byteLength_eq_zero_iff.1 hne)⟩
  · rintro ⟨head, rfl, hmark, hpos⟩
    have hne : head ≠ [] := fun hnil => by simp [hnil] at hpos
    rw [parse_append hne hmark]

/-- The canonical text is read as the same parts. An empty name would put the `?` in first position,
where it starts no pattern. -/
theorem sameParts_canonical_iff (raw : Text) :
    (parse (parse raw).canonical).SameParts (parse raw) ↔
      ¬ ((parse raw).name = [] ∧ (parse raw).invert = false ∧ (parse raw).pattern.isSome) := by
  rcases pattern_cases raw with ⟨head, pattern, rfl, hmark, hne⟩ | hraw
  · rw [← and_assoc, ← writeName_eq_nil_iff]
    have hparse := parse_append hne hmark pattern
    constructor
    · rintro hsame ⟨hname, -⟩
      have hpattern := hsame.pattern
      rw [canonical, hname, hparse, List.nil_append, parse_of_no_pattern (.inr rfl)] at hpattern
      cases hpattern
    · intro hnot
      refine sameParts_canonical_append hne hmark fun hname => hnot ?_
      rw [hparse]
      exact ⟨hname, rfl⟩
  · have hpattern : (parse raw).pattern = none := by rw [parse_of_no_pattern hraw]
    refine ⟨fun _ h => ?_, fun _ => sameParts_canonical_of_no_pattern hraw⟩
    simp [hpattern] at h

/-- **The parts of an expression, and its canonical text.** The name neither begins nor ends with
padding. There is a pattern exactly if the first `?` is not at byte zero; then the text is what
stands in front of it, the `?`, and the pattern, and the offset of the pattern is the byte where it
begins. The canonical text has the same name, negation and pattern, unless the name is empty, not
negated, and in front of a pattern. -/
theorem parts_and_canonical_text (raw : Text) :
    let e := parse raw
    (∀ c ∈ e.name.head?, ¬ c ≤ ' ') ∧ (∀ c ∈ e.name.getLast?, ¬ c ≤ ' ') ∧
      (∀ pattern, e.pattern = some pattern ↔
        ∃ head, raw = head ++ '?' :: pattern ∧ '?' ∉ head ∧ 0 < head.byteLength) ∧
      (∀ head pattern, raw = head ++ '?' :: pattern → '?' ∉ head → 0 < head.byteLength →
        ∃ offset, e.patternOffset = some offset ∧
          raw.splitAtByte? offset = some (head ++ ['?'], pattern)) ∧
      ((parse e.canonical).SameParts e ↔
        ¬ (e.name = [] ∧ e.invert = false ∧ e.pattern.isSome)) := by
  intro e
  have htrimmed : e.name.Trimmed isPadding := trimmed_splitInversion _
  have hpadding : ∀ {c : Char}, ¬ isPadding c → ¬ c ≤ ' ' := fun h hle => h (decide_eq_true hle)
  refine ⟨fun c hc => hpadding (htrimmed.head_not c hc),
    fun c hc => hpadding (htrimmed.last_not c hc),
    fun pattern => pattern_eq_some_iff, ?_, sameParts_canonical_iff raw⟩
  intro head pattern hraw hmark hpos
  have hp : e.pattern = some pattern := pattern_eq_some_iff.2 ⟨head, hraw, hmark, hpos⟩
  refine ⟨_, patternOffset_eq hp hraw, ?_⟩
  refine Text.splitAtByte?_eq_some_iff.2 ⟨by rw [hraw]; simp, ?_⟩
  rw [Text.byteLength_append]
  rfl

end Interpolation.Expression

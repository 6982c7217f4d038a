import Interpolation.Proofs.Braces
import Mathlib.Data.List.Chain

/-!
# Interpolation.Proofs.Segmentation

What a **segmentation** of a text is, said without reading the text from left to right: the segments
tile the bytes of the text, each one says what stands in its bytes, literals do not touch, and only
the last segment may be unterminated (`IsSegmentation`).

* `Text.slice?` is the part of a text between two byte offsets. It fails for an offset beyond the
  text or inside a character, so a segmentation has all its offsets on character boundaries.
* `isSegmentation_segments`: the segments of a text are a segmentation of it.
* `eq_segments_of_isSegmentation`: no other list of segments is one.
-/

namespace Interpolation

namespace Text

/-! ### Parts of a text by byte offsets -/

@[simp] theorem utf8Size_dollar : '$'.utf8Size = 1 := rfl

@[simp] theorem utf8Size_open : '{'.utf8Size = 1 := rfl

@[simp] theorem utf8Size_close : '}'.utf8Size = 1 := rfl

/-- The delimiters of a placeholder take up three bytes. -/
theorem byteLength_braced (raw rest : Text) :
    byteLength ('$' :: '{' :: (raw ++ '}' :: rest)) = raw.byteLength + 3 + rest.byteLength := by
  simp only [byteLength_cons, byteLength_append, utf8Size_dollar, utf8Size_open, utf8Size_close]
  omega

/-- The text before and after byte `n`; nothing if `n` lies beyond the text or inside a
character. -/
def splitAtByte? (n : Nat) : Text → Option (Text × Text)
  | [] => if n = 0 then some ([], []) else none
  | c :: t =>
    if n = 0 then some ([], c :: t)
    else if c.utf8Size ≤ n then (splitAtByte? (n - c.utf8Size) t).map fun p => (c :: p.1, p.2)
    else none

/-- The part of the text in a range of bytes; nothing if an end of the range lies beyond the text or
inside a character, or if the range ends before it starts. -/
def slice? (t : Text) (span : Span) : Option Text :=
  if span.start ≤ span.stop then
    (t.splitAtByte? span.start).bind fun p =>
      (p.2.splitAtByte? (span.stop - span.start)).map Prod.fst
  else none

theorem byteLength_eq_zero_iff {t : Text} : t.byteLength = 0 ↔ t = [] := by
  cases t with
  | nil => simp
  | cons c t =>
    have := c.utf8Size_pos
    simp only [byteLength_cons, reduceCtorEq, iff_false]
    omega

/-- Two cuts of one text at the same byte are the same cut. -/
theorem append_inj_of_byteLength_eq {s s' u u' : Text} (h : s ++ u = s' ++ u')
    (hlen : s.byteLength = s'.byteLength) : s = s' ∧ u = u' := by
  induction s generalizing s' with
  | nil =>
    obtain rfl := byteLength_eq_zero_iff.1 hlen.symm
    exact ⟨rfl, h⟩
  | cons c s ih =>
    cases s' with
    | nil => exact absurd (byteLength_eq_zero_iff.1 hlen) (List.cons_ne_nil c s)
    | cons d s' =>
      obtain ⟨rfl, htail⟩ := List.cons.inj h
      simp only [byteLength_cons] at hlen
      obtain ⟨rfl, hu⟩ := ih htail (by omega)
      exact ⟨rfl, hu⟩

theorem splitAtByte?_byteLength (s u : Text) :
    (s ++ u).splitAtByte? s.byteLength = some (s, u) := by
  induction s with
  | nil => cases u <;> simp [splitAtByte?]
  | cons c s ih =>
    have hpos := c.utf8Size_pos
    rw [List.cons_append, splitAtByte?, byteLength_cons, if_neg (by omega), if_pos (by omega),
      Nat.add_sub_cancel_left, ih]
    rfl

theorem splitAtByte?_eq_some_iff {n : Nat} {t s u : Text} :
    t.splitAtByte? n = some (s, u) ↔ t = s ++ u ∧ s.byteLength = n := by
  constructor
  · intro h
    induction t generalizing n s with
    | nil =>
      rw [splitAtByte?] at h
      split at h
      · cases h
        exact ⟨rfl, by simp [*]⟩
      · cases h
    | cons c t ih =>
      rw [splitAtByte?] at h
      split at h
      · cases h
        exact ⟨rfl, by simp [*]⟩
      · split at h
        · obtain ⟨⟨s', u'⟩, hp, he⟩ := Option.map_eq_some_iff.1 h
          obtain ⟨rfl, rfl⟩ := Prod.mk.inj he
          obtain ⟨rfl, hn⟩ := ih hp
          refine ⟨rfl, ?_⟩
          simp only [byteLength_cons]
          omega
        · cases h
  · rintro ⟨rfl, rfl⟩
    exact splitAtByte?_byteLength s u

/-- A part of a text stands between what is before it and what is after it. -/
theorem slice?_eq_some_iff {t part : Text} {start stop : Nat} :
    t.slice? ⟨start, stop⟩ = some part ↔
      ∃ before after, t = before ++ (part ++ after) ∧ before.byteLength = start ∧
        stop = start + part.byteLength := by
  constructor
  · intro h
    rw [slice?] at h
    split at h
    · rename_i hle
      obtain ⟨⟨before, rest⟩, hb, h⟩ := Option.bind_eq_some_iff.1 h
      obtain ⟨⟨part', after⟩, hp, rfl⟩ := Option.map_eq_some_iff.1 h
      obtain ⟨rfl, hstart⟩ := splitAtByte?_eq_some_iff.1 hb
      obtain ⟨rfl, hstop⟩ := splitAtByte?_eq_some_iff.1 hp
      refine ⟨before, after, rfl, hstart, ?_⟩
      simp only at hle hstop ⊢
      omega
    · cases h
  · rintro ⟨before, after, rfl, rfl, rfl⟩
    simp only [slice?, Nat.le_add_right, if_true, splitAtByte?_byteLength, Nat.add_sub_cancel_left,
      Option.bind_some, Option.map_some]

/-- A part that begins where `t` begins is the beginning of `t`. -/
theorem exists_append_of_slice?_eq_some {before t part : Text} {stop : Nat}
    (h : (before ++ t).slice? ⟨before.byteLength, stop⟩ = some part) :
    ∃ after, t = part ++ after ∧ stop = before.byteLength + part.byteLength := by
  obtain ⟨x, after, he, hx, hstop⟩ := slice?_eq_some_iff.1 h
  obtain ⟨-, rfl⟩ := append_inj_of_byteLength_eq he hx.symm
  exact ⟨after, rfl, hstop⟩

end Text

/-! ### Segmentations -/

namespace Segment

/-- Is the segment literal text? -/
def isLiteral : Segment → Bool
  | .literal _ => true
  | _ => false

/-- Is the segment a placeholder that is never closed? -/
def isUnterminated : Segment → Bool
  | .unterminated _ => true
  | _ => false

/-- The bytes that the segment covers if it begins at byte `start`. -/
def range (start : Nat) : Segment → Span
  | .literal text => ⟨start, start + text.byteLength⟩
  | .placeholder _ span => span
  | .unterminated span => span

/-- What stands in the bytes of the segment is what the segment says: text without `${`; a
body between `${` and `}` whose braces are balanced; or a `${` from whose brace on the level
never returns to zero. -/
def Describes (t : Text) (start : Nat) : Segment → Prop
  | .literal text =>
    t.slice? ⟨start, start + text.byteLength⟩ = some text ∧ text ≠ [] ∧ ¬ HasOpening text
  | .placeholder e span =>
    ∃ raw : Text, t.slice? span = some ('$' :: '{' :: (raw ++ ['}'])) ∧ BraceBalanced raw ∧
      e = Expression.parse raw
  | .unterminated span =>
    ∃ body : Text, t.slice? span = some ('$' :: '{' :: body) ∧ StaysOpen 0 body

end Segment

/-- The segments cover the bytes of `t` from `start` to `stop`, each one the bytes after those of
the one before it, and each one says what stands there. -/
def Tiles (t : Text) : (start : Nat) → List Segment → (stop : Nat) → Prop
  | start, [], stop => start = stop
  | start, s :: l, stop =>
    (s.range start).start = start ∧ s.Describes t start ∧ Tiles t (s.range start).stop l stop

/-- The list is a division of the text into segments. -/
structure IsSegmentation (t : Text) (l : List Segment) : Prop where
  /-- The segments cover the text from its first byte to its last. -/
  tiles : Tiles t 0 l t.byteLength
  /-- No two literals are next to each other. -/
  literals_apart : l.IsChain fun s s' => ¬ (s.isLiteral ∧ s'.isLiteral)
  /-- Only the last segment may be unterminated. -/
  unterminated_last : ∀ s ∈ l.dropLast, ¬ s.isUnterminated

/-! ### The segments are a segmentation -/

theorem Tiles.append {t : Text} {start middle stop : Nat} {l l' : List Segment}
    (h : Tiles t start l middle) (h' : Tiles t middle l' stop) : Tiles t start (l ++ l') stop := by
  induction l generalizing start with
  | nil => exact (show start = middle from h) ▸ h'
  | cons s l ih => exact ⟨h.1, h.2.1, ih h.2.2⟩

/-- Text without an opening is covered by its literal, and an empty text by nothing. -/
theorem tiles_literalSegments {text : Text} (h : ¬ HasOpening text) (before after : Text) :
    Tiles (before ++ (text ++ after)) before.byteLength (literalSegments text)
      (before.byteLength + text.byteLength) := by
  by_cases hnil : text = []
  · subst hnil
    simp [literalSegments, Tiles]
  · rw [literalSegments, if_neg hnil]
    exact ⟨rfl, ⟨Text.slice?_eq_some_iff.2 ⟨before, after, rfl, rfl, rfl⟩, hnil, h⟩, rfl⟩

/-- The segments of a text cover it, wherever the text stands in another one. -/
theorem tiles_segmentsFrom (t before : Text) :
    Tiles (before ++ t) before.byteLength (segmentsFrom before.byteLength t)
      (before ++ t).byteLength := by
  induction t using Text.segmentInduction generalizing before with
  | plain t h =>
    rw [segmentsFrom_of_not_hasOpening h, Text.byteLength_append]
    simpa only [List.append_nil] using tiles_literalSegments h before []
  | unclosed lead body hl hb =>
    rw [segmentsFrom_unclosed hl hb]
    refine (tiles_literalSegments hl _ _).append ⟨rfl, ⟨body, ?_, hb⟩, ?_⟩
    · refine Text.slice?_eq_some_iff.2 ⟨before ++ lead, [], by simp, by simp, ?_⟩
      simp only [Text.byteLength_append, Text.byteLength_cons, Text.utf8Size_dollar,
        Text.utf8Size_open]
      omega
    · simp only [Segment.range, Tiles, Text.byteLength_append]
  | closed lead raw rest hl hr ih =>
    rw [segmentsFrom_closed hl hr]
    refine (tiles_literalSegments hl _ _).append ⟨rfl, ⟨raw, ?_, hr, rfl⟩, ?_⟩
    · refine Text.slice?_eq_some_iff.2 ⟨before ++ lead, rest, by simp, by simp, ?_⟩
      simp
      omega
    · have hread := ih (before ++ (lead ++ '$' :: '{' :: (raw ++ ['}'])))
      have hlen : (before ++ (lead ++ '$' :: '{' :: (raw ++ ['}']))).byteLength =
          before.byteLength + lead.byteLength + raw.byteLength + 3 := by
        simp
        omega
      simpa only [Segment.range, hlen, List.append_assoc, List.cons_append, List.nil_append]
        using hread

/-- A literal stands at most before something else, never before another literal. -/
theorem isChain_literalSegments_append (t : Text) {l : List Segment}
    (h : l.IsChain fun s s' => ¬ (s.isLiteral ∧ s'.isLiteral))
    (hhead : ∀ s ∈ l.head?, ¬ s.isLiteral) :
    (literalSegments t ++ l).IsChain fun s s' => ¬ (s.isLiteral ∧ s'.isLiteral) := by
  rw [literalSegments]
  split
  · exact h
  · exact List.isChain_cons.2 ⟨fun s hs hboth => hhead s hs hboth.2, h⟩

theorem isChain_segmentsFrom (t : Text) (start : Nat) :
    (segmentsFrom start t).IsChain fun s s' => ¬ (s.isLiteral ∧ s'.isLiteral) := by
  induction t using Text.segmentInduction generalizing start with
  | plain t h =>
    rw [segmentsFrom_of_not_hasOpening h]
    simpa using isChain_literalSegments_append t List.IsChain.nil (by simp)
  | unclosed lead body hl hb =>
    rw [segmentsFrom_unclosed hl hb]
    exact isChain_literalSegments_append lead (List.isChain_singleton _)
      (by simp [Segment.isLiteral])
  | closed lead raw rest hl hr ih =>
    rw [segmentsFrom_closed hl hr]
    refine isChain_literalSegments_append lead (List.isChain_cons.2 ⟨?_, ih _⟩)
      (by simp [Segment.isLiteral])
    simp [Segment.isLiteral]

theorem not_isUnterminated_of_mem_literalSegments {t : Text} {s : Segment}
    (h : s ∈ literalSegments t) : ¬ s.isUnterminated := by
  rw [eq_literal_of_mem_literalSegments h]
  exact Bool.false_ne_true

theorem not_isUnterminated_of_mem_dropLast {t : Text} {start : Nat} {s : Segment}
    (h : s ∈ (segmentsFrom start t).dropLast) : ¬ s.isUnterminated := by
  induction t using Text.segmentInduction generalizing start with
  | plain t ht =>
    rw [segmentsFrom_of_not_hasOpening ht] at h
    exact not_isUnterminated_of_mem_literalSegments (List.dropLast_subset _ h)
  | unclosed lead body hl hb =>
    rw [segmentsFrom_unclosed hl hb, List.dropLast_concat] at h
    exact not_isUnterminated_of_mem_literalSegments h
  | closed lead raw rest hl hr ih =>
    rw [segmentsFrom_closed hl hr, List.dropLast_append_of_ne_nil (List.cons_ne_nil _ _)] at h
    rcases List.mem_append.1 h with h | h
    · exact not_isUnterminated_of_mem_literalSegments h
    · by_cases hnil : segmentsFrom (start + lead.byteLength + raw.byteLength + 3) rest = []
      · rw [hnil] at h
        cases h
      · rw [List.dropLast_cons_of_ne_nil hnil] at h
        rcases List.mem_cons.1 h with rfl | h
        · simp [Segment.isUnterminated]
        · exact ih h

/-- The segments of a text are a division of it into segments. -/
theorem isSegmentation_segments (t : Text) : IsSegmentation t (segments t) where
  tiles := tiles_segmentsFrom t []
  literals_apart := isChain_segmentsFrom t 0
  unterminated_last _ h := not_isUnterminated_of_mem_dropLast h

/-! ### There is no other segmentation -/

theorem eq_nil_of_literalSegments_append_head {t : Text} (l : List Segment)
    (h : ∀ s ∈ (literalSegments t ++ l).head?, ¬ s.isLiteral) : t = [] := by
  by_contra hnil
  rw [literalSegments, if_neg hnil] at h
  exact h (.literal t) rfl rfl

/-- Literal text before something that is no literal text is the first segment. -/
theorem segmentsFrom_literal_append {text t : Text} {start : Nat} (hnil : text ≠ [])
    (hplain : ¬ HasOpening text)
    (hhead : ∀ s ∈ (segmentsFrom (start + text.byteLength) t).head?, ¬ s.isLiteral) :
    segmentsFrom start (text ++ t) = .literal text :: segmentsFrom (start + text.byteLength) t := by
  have hlit : literalSegments text = [.literal text] := if_neg hnil
  induction t using Text.segmentInduction with
  | plain t h =>
    rw [segmentsFrom_of_not_hasOpening h] at hhead ⊢
    obtain rfl := eq_nil_of_literalSegments_append_head [] (by simpa using hhead)
    rw [List.append_nil, segmentsFrom_of_not_hasOpening hplain, hlit]
    rfl
  | unclosed lead body hl hb =>
    rw [segmentsFrom_unclosed hl hb] at hhead ⊢
    obtain rfl := eq_nil_of_literalSegments_append_head _ hhead
    rw [List.nil_append, segmentsFrom_unclosed hplain hb, hlit]
    simp only [literalSegments, if_true, List.nil_append, List.singleton_append,
      Text.byteLength_nil, Nat.add_zero, Text.byteLength_append, Nat.add_assoc]
  | closed lead raw rest hl hr _ =>
    rw [segmentsFrom_closed hl hr] at hhead ⊢
    obtain rfl := eq_nil_of_literalSegments_append_head _ hhead
    rw [List.nil_append, segmentsFrom_closed hplain hr, hlit]
    simp only [literalSegments, if_true, List.nil_append, List.singleton_append,
      Text.byteLength_nil, Nat.add_zero]

/-- A complete placeholder at the beginning is the first segment. -/
theorem segmentsFrom_placeholder_append {raw : Text} (hr : BraceBalanced raw) (t : Text)
    (start : Nat) :
    segmentsFrom start ('$' :: '{' :: (raw ++ ['}']) ++ t) =
      .placeholder (Expression.parse raw) ⟨start, start + raw.byteLength + 3⟩ ::
        segmentsFrom (start + raw.byteLength + 3) t := by
  simpa [literalSegments] using segmentsFrom_closed not_hasOpening_nil hr t start

/-- A placeholder that opens at the beginning and is never closed is the only segment. -/
theorem segmentsFrom_unterminated {body : Text} (hb : StaysOpen 0 body) (start : Nat) :
    segmentsFrom start ('$' :: '{' :: body) =
      [.unterminated ⟨start, start + Text.byteLength ('$' :: '{' :: body)⟩] := by
  simpa [literalSegments] using segmentsFrom_unclosed not_hasOpening_nil hb start

/-- A tiling of what follows `before`, with the literals apart and nothing after an
unterminated segment, is the list of segments. The induction is on the list; `before` grows by
what its first segment covers. -/
theorem eq_segmentsFrom_of_tiles {l : List Segment} (before t : Text)
    (htiles : Tiles (before ++ t) before.byteLength l (before ++ t).byteLength)
    (hapart : l.IsChain fun s s' => ¬ (s.isLiteral ∧ s'.isLiteral))
    (hlast : ∀ s ∈ l.dropLast, ¬ s.isUnterminated) :
    l = segmentsFrom before.byteLength t := by
  induction l generalizing before t with
  | nil =>
    have hlen : before.byteLength = (before ++ t).byteLength := htiles
    rw [Text.byteLength_append] at hlen
    obtain rfl := Text.byteLength_eq_zero_iff.1 (by omega : t.byteLength = 0)
    exact (segmentsFrom_of_not_hasOpening not_hasOpening_nil _).symm
  | cons s l ih =>
    obtain ⟨hstart, hdesc, hrest⟩ := htiles
    obtain ⟨hnext, hapart'⟩ := List.isChain_cons.1 hapart
    have hlast' : ∀ s' ∈ l.dropLast, ¬ s'.isUnterminated := by
      intro s' hs'
      cases l with
      | nil => cases hs'
      | cons s'' l => exact hlast s' (List.mem_cons_of_mem _ hs')
    -- What is left of `t` after the first segment `part`.
    have step : ∀ part after : Text, t = part ++ after →
        (s.range before.byteLength).stop = before.byteLength + part.byteLength →
        l = segmentsFrom (before.byteLength + part.byteLength) after := by
      rintro part after rfl hstop
      rw [hstop, ← Text.byteLength_append, ← List.append_assoc] at hrest
      rw [← Text.byteLength_append]
      exact ih _ _ hrest hapart' hlast'
    cases s with
    | literal text =>
      obtain ⟨hslice, hnil, hplain⟩ := hdesc
      obtain ⟨after, rfl, -⟩ := Text.exists_append_of_slice?_eq_some hslice
      have hl := step text after rfl rfl
      rw [segmentsFrom_literal_append hnil hplain, ← hl]
      rw [← hl]
      exact fun s' hs' hlit => hnext s' hs' ⟨rfl, hlit⟩
    | placeholder e span =>
      obtain ⟨start, stop⟩ := span
      obtain ⟨raw, hslice, hr, rfl⟩ := hdesc
      obtain rfl : start = before.byteLength := hstart
      obtain ⟨after, rfl, rfl⟩ := Text.exists_append_of_slice?_eq_some hslice
      have hl := step _ after rfl rfl
      have hlen : Text.byteLength ('$' :: '{' :: (raw ++ ['}'])) = raw.byteLength + 3 := by
        simp
        omega
      rw [segmentsFrom_placeholder_append hr, hl, hlen, Nat.add_assoc]
    | unterminated span =>
      obtain ⟨start, stop⟩ := span
      obtain ⟨body, hslice, hb⟩ := hdesc
      obtain rfl : start = before.byteLength := hstart
      obtain ⟨after, rfl, rfl⟩ := Text.exists_append_of_slice?_eq_some hslice
      -- Nothing follows an unterminated segment, so it reaches the end of the text.
      have hnil : l = [] := by
        cases l with
        | nil => rfl
        | cons s' l => exact absurd rfl (hlast _ List.mem_cons_self)
      subst hnil
      have hend : before.byteLength + Text.byteLength ('$' :: '{' :: body) =
          (before ++ ('$' :: '{' :: body ++ after)).byteLength := hrest
      simp only [Text.byteLength_append] at hend
      obtain rfl := Text.byteLength_eq_zero_iff.1 (by omega : after.byteLength = 0)
      rw [List.append_nil, segmentsFrom_unterminated hb]

/-- No other list of segments is a division of the text. -/
theorem eq_segments_of_isSegmentation {t : Text} {l : List Segment} (h : IsSegmentation t l) :
    l = segments t :=
  eq_segmentsFrom_of_tiles [] t h.tiles h.literals_apart h.unterminated_last

end Interpolation

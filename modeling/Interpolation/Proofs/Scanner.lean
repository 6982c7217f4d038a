import Interpolation.Proofs.Segmentation

/-!
# Interpolation.Proofs.Scanner

A **scanner** answers the segments of a text one at a time. It goes over the characters once,
remembers the character before the next one, and takes the texts of its segments out of the source
as slices by byte offsets.

Three things can go wrong in a scanner, and each makes `Scanner.next` fail (`none`): a slice that
does not lie on character boundaries, a `{` without a byte before it where a placeholder should
open, and a level below zero. A scanner that has come to its end answers with no segment
(`some none`), which is something else.

* `Scanner.Ready s l`: the invariant of a scanner between two questions. `l` is what it
  still has to answer.
* `Ready.next`: one question is answered by the first of these segments, or by none if
  there is none.
* `isSegmentation_iff_and_scanner_answer`: a scanner of `t` never fails and answers
  `segments t`, which is the only segmentation of `t`; after that it answers with no segment,
  however often it is asked.
-/

namespace Interpolation

/-- A scanner of the segments of a text. -/
structure Scanner where
  /-- The text that is read. -/
  source : Text
  /-- The characters not yet read. -/
  unread : Text
  /-- The byte offset of the first of them. -/
  offset : Nat
  /-- Where the text begins that no segment covers yet. -/
  textStart : Nat
  /-- The character read last. -/
  previous : Option Char
  /-- A segment that was read together with the literal before it, and not answered yet. -/
  pending : Option Segment
  /-- Has the end been reached? -/
  finished : Bool

namespace Scanner

/-- A scanner at the beginning of a text. -/
def ofText (t : Text) : Scanner := ⟨t, t, 0, 0, none, none, false⟩

/-- Read on to the brace that closes the placeholder opened at byte `opened`. The level counts the
braces that are open, that of the placeholder included. -/
def close (s : Scanner) (opened : Nat) : (level : Nat) → (unread : Text) → (offset : Nat) →
    Option (Segment × Scanner)
  | _, [], offset =>
    some (.unterminated ⟨opened, s.source.byteLength⟩,
      { s with unread := [], offset := offset, textStart := s.source.byteLength, finished := true })
  | level, c :: rest, offset =>
    if c = '{' then s.close opened (level + 1) rest (offset + c.utf8Size)
    else if c = '}' then
      match level with
      | 0 => none
      | 1 =>
        (s.source.slice? ⟨opened + 2, offset⟩).map fun raw =>
          (.placeholder (Expression.parse raw) ⟨opened, offset + 1⟩,
            { s with unread := rest, offset := offset + c.utf8Size, textStart := offset + 1,
                     previous := some c })
      | level + 2 => s.close opened (level + 1) rest (offset + c.utf8Size)
    else s.close opened level rest (offset + c.utf8Size)

/-- Answer a segment that was read together with the text before it. Text that is not empty is
answered first, and the segment is held back for the next question. -/
def deliver (text : Text) : Segment × Scanner → Option Segment × Scanner
  | (segment, s) =>
    if text = [] then (some segment, s)
    else (some (.literal text), { s with pending := some segment })

/-- Read on to the next placeholder and close it. -/
def advance (s : Scanner) : (previous : Option Char) → (unread : Text) → (offset : Nat) →
    Option (Option Segment × Scanner)
  | previous, [], offset =>
    (s.source.slice? ⟨s.textStart, s.source.byteLength⟩).map fun text =>
      (if text = [] then none else some (.literal text),
        { s with unread := [], offset := offset, previous := previous, finished := true })
  | previous, c :: rest, offset =>
    if c = '{' ∧ previous = some '$' then
      match offset with
      | 0 => none
      | opened + 1 =>
        (s.source.slice? ⟨s.textStart, opened⟩).bind fun text =>
          (({ s with previous := some c }).close opened 1 rest (offset + c.utf8Size)).map
            (deliver text)
    else s.advance (some c) rest (offset + c.utf8Size)

/-- Ask for the next segment. -/
def next (s : Scanner) : Option (Option Segment × Scanner) :=
  match s.pending with
  | some segment => some (some segment, { s with pending := none })
  | none => if s.finished then some (none, s) else s.advance s.previous s.unread s.offset

/-- The answer to the question that follows `n` others. -/
def answer (s : Scanner) : Nat → Option (Option Segment)
  | 0 => s.next.map Prod.fst
  | n + 1 => s.next.bind fun p => p.2.answer n

/-! ### Reading on -/

/-- A scanner that stands behind `level` braces of a placeholder closes it where `closing` does, and
then takes its body out of the source. -/
theorem close_eq (s : Scanner) (opened level : Nat) (unread : Text) (offset : Nat) :
    s.close opened (level + 1) unread offset =
      match closing level unread with
      | none =>
        some (.unterminated ⟨opened, s.source.byteLength⟩,
          { s with
            unread := [], offset := offset + unread.byteLength,
            textStart := s.source.byteLength, finished := true })
      | some (raw, rest) =>
        (s.source.slice? ⟨opened + 2, offset + raw.byteLength⟩).map fun body =>
          (.placeholder (Expression.parse body) ⟨opened, offset + raw.byteLength + 1⟩,
            { s with unread := rest, offset := offset + raw.byteLength + 1,
                     textStart := offset + raw.byteLength + 1, previous := some '}' }) := by
  induction unread generalizing level offset with
  | nil => rfl
  | cons c unread ih =>
    by_cases ho : c = '{'
    · simp only [close, closing, if_pos ho, ih]
      cases closing (level + 1) unread with
      | none => simp only [Option.map_none, Text.byteLength_cons, Nat.add_assoc]
      | some p => simp only [Option.map_some, Text.byteLength_cons, Nat.add_assoc]
    · by_cases hc : c = '}'
      · subst hc
        cases level with
        | zero => rfl
        | succ level =>
          simp only [close, closing, if_neg ho, if_true, ih, Nat.succ_ne_zero, if_false,
            Nat.add_sub_cancel]
          cases closing level unread with
          | none => simp only [Option.map_none, Text.byteLength_cons, Nat.add_assoc]
          | some p => simp only [Option.map_some, Text.byteLength_cons, Nat.add_assoc]
      · simp only [close, closing, if_neg ho, if_neg hc, ih]
        cases closing level unread with
        | none => simp only [Option.map_none, Text.byteLength_cons, Nat.add_assoc]
        | some p => simp only [Option.map_some, Text.byteLength_cons, Nat.add_assoc]

/-- A scanner reads over text that opens no placeholder. -/
theorem advance_append (s : Scanner) {text : Text} (hplain : ¬ HasOpening text)
    {previous : Option Char} (hseam : ¬ (previous = some '$' ∧ text.head? = some '{'))
    (unread : Text) (offset : Nat) :
    s.advance previous (text ++ unread) offset =
      s.advance (text.getLast?.or previous) unread (offset + text.byteLength) := by
  induction text generalizing previous offset with
  | nil => rfl
  | cons c text ih =>
    rw [hasOpening_cons_iff, not_or] at hplain
    have hopen : ¬ (c = '{' ∧ previous = some '$') := by
      rintro ⟨rfl, hp⟩
      exact hseam ⟨hp, rfl⟩
    have hseam' : ¬ (some c = some '$' ∧ text.head? = some '{') := by
      rintro ⟨hc, ht⟩
      exact hplain.1 ⟨Option.some.inj hc, ht⟩
    have hlast : text.getLast?.or (some c) = (c :: text).getLast?.or previous := by
      rw [List.getLast?_cons]
      cases text.getLast? <;> rfl
    simp only [List.cons_append, advance, if_neg hopen]
    rw [ih hplain.2 hseam', hlast, Text.byteLength_cons, Nat.add_assoc]

/-- A scanner that reads over plain text to a `${` takes that text out of the source, and
closes the placeholder. -/
theorem advance_opening (s : Scanner) {before lead body : Text} (hl : ¬ HasOpening lead)
    (hprev : s.previous ≠ some '$') (hsource : s.source = before ++ (lead ++ '$' :: '{' :: body))
    (hstart : s.textStart = before.byteLength) :
    s.advance s.previous (lead ++ '$' :: '{' :: body) before.byteLength =
      (({ s with previous := some '{' }).close (before.byteLength + lead.byteLength) 1 body
        (before.byteLength + lead.byteLength + 2)).map (deliver lead) := by
  have hplain : ¬ HasOpening (lead ++ ['$']) := by
    rw [hasOpening_append_iff]
    rintro (h | h | ⟨-, h⟩)
    · exact hl h
    · simp [hasOpening_cons_iff, not_hasOpening_nil] at h
    · cases h
  have hslice : s.source.slice? ⟨s.textStart, before.byteLength + lead.byteLength⟩ = some lead :=
    Text.slice?_eq_some_iff.2 ⟨before, '$' :: '{' :: body, hsource, hstart.symm, by rw [hstart]⟩
  rw [show lead ++ '$' :: '{' :: body = (lead ++ ['$']) ++ '{' :: body by simp,
    s.advance_append hplain (fun h => hprev h.1), List.getLast?_concat]
  simp only [Option.some_or, advance, and_self, if_true, Text.byteLength_append,
    Text.byteLength_cons, Text.utf8Size_dollar, Text.byteLength_nil, Nat.add_zero, ← Nat.add_assoc,
    hslice, Option.bind_some]
  rfl

/-! ### The invariant -/

/-- The scanner stands between two segments and has the segments `l` still to answer. -/
inductive Ready : Scanner → List Segment → Prop
  /-- It stands before the part `t` of the source and has covered everything before that. -/
  | reading {s : Scanner} (before t : Text) (source : s.source = before ++ t)
      (unread : s.unread = t) (offset : s.offset = before.byteLength)
      (textStart : s.textStart = before.byteLength)
      (previous : s.previous ≠ some '$') (pending : s.pending = none)
      (finished : s.finished = false) :
      Ready s (segmentsFrom before.byteLength t)
  /-- It holds back a segment that was read together with a literal. -/
  | holding {s : Scanner} {l : List Segment} (segment : Segment)
      (pending : s.pending = some segment) (ready : Ready { s with pending := none } l) :
      Ready s (segment :: l)
  /-- It has come to its end. -/
  | done {s : Scanner} (pending : s.pending = none) (finished : s.finished = true) : Ready s []

theorem ready_ofText (t : Text) : Ready (ofText t) (segments t) :=
  Ready.reading [] t rfl rfl rfl rfl (by simp [ofText]) rfl rfl

/-- A literal, if there is one, and the segment after it are answered one after the other. -/
theorem Ready.deliver {s : Scanner} {l : List Segment} (h : Ready s l) (hpending : s.pending = none)
    (text : Text) (segment : Segment) :
    ∃ s', Scanner.deliver text (segment, s) = ((literalSegments text ++ segment :: l).head?, s') ∧
      Ready s' (literalSegments text ++ segment :: l).tail := by
  by_cases hnil : text = []
  · rw [Scanner.deliver, literalSegments, if_pos hnil, if_pos hnil]
    exact ⟨s, rfl, h⟩
  · rw [Scanner.deliver, literalSegments, if_neg hnil, if_neg hnil]
    refine ⟨_, rfl, Ready.holding segment rfl ?_⟩
    rw [← hpending]
    exact h

/-- **One question.** A scanner does not fail; it answers the first segment that it has to, or none
if it has none left, and then has the others to answer. -/
theorem Ready.next {s : Scanner} {l : List Segment} (h : Ready s l) :
    ∃ s', s.next = some (l.head?, s') ∧ Ready s' l.tail := by
  cases h with
  | holding segment pending ready => exact ⟨_, by simp only [Scanner.next, pending]; rfl, ready⟩
  | done pending finished =>
    exact ⟨s, by simp only [Scanner.next, pending, finished]; rfl, .done pending finished⟩
  | reading before t source unread offset textStart previous pending finished =>
    simp only [Scanner.next, pending, finished, unread, offset, Bool.false_eq_true, if_false]
    induction t using Text.segmentInduction with
    | plain t ht =>
      have hadvance := s.advance_append ht (fun hp => previous hp.1) [] before.byteLength
      have hslice : s.source.slice? ⟨s.textStart, s.source.byteLength⟩ = some t :=
        Text.slice?_eq_some_iff.2 ⟨before, [], by rw [List.append_nil, source], textStart.symm,
          by rw [source, textStart, Text.byteLength_append]⟩
      rw [List.append_nil] at hadvance
      rw [hadvance, advance, hslice, Option.map_some, segmentsFrom_of_not_hasOpening ht,
        literalSegments]
      by_cases hnil : t = []
      · rw [if_pos hnil, if_pos hnil]
        exact ⟨_, rfl, .done pending rfl⟩
      · rw [if_neg hnil, if_neg hnil]
        exact ⟨_, rfl, .done pending rfl⟩
    | unclosed lead body hl hb =>
      rw [s.advance_opening hl previous source textStart, close_eq, closing_eq_none_iff.2 hb,
        segmentsFrom_unclosed hl hb,
        ← Text.byteLength_append before (lead ++ '$' :: '{' :: body), ← source]
      have hready : Ready
          { s with
            unread := [], offset := before.byteLength + lead.byteLength + 2 + body.byteLength,
            textStart := s.source.byteLength, previous := some '{', finished := true } [] :=
        .done pending rfl
      obtain ⟨s', he, hready'⟩ := hready.deliver pending lead
        (.unterminated ⟨before.byteLength + lead.byteLength, s.source.byteLength⟩)
      exact ⟨s', congrArg some he, hready'⟩
    | closed lead raw rest hl hr _ =>
      have hslice : s.source.slice? ⟨before.byteLength + lead.byteLength + 2,
          before.byteLength + lead.byteLength + 2 + raw.byteLength⟩ = some raw :=
        Text.slice?_eq_some_iff.2 ⟨before ++ (lead ++ ['$', '{']), '}' :: rest, by simp [source],
          by simp [Nat.add_assoc], rfl⟩
      -- The scanner behind the placeholder has covered everything up to its closing brace.
      have hlen : before.byteLength + lead.byteLength + 2 + raw.byteLength + 1 =
          (before ++ (lead ++ '$' :: '{' :: (raw ++ ['}']))).byteLength := by
        simp
        omega
      have hstop : before.byteLength + lead.byteLength + raw.byteLength + 3 =
          before.byteLength + lead.byteLength + 2 + raw.byteLength + 1 := by
        omega
      rw [s.advance_opening hl previous source textStart, close_eq,
        closing_zero_eq_some_iff.2 ⟨rfl, hr⟩, segmentsFrom_closed hl hr, hstop]
      simp only [hslice, Option.map_some, hlen]
      have hready : Ready
          { s with unread := rest, previous := some '}',
                   offset := (before ++ (lead ++ '$' :: '{' :: (raw ++ ['}']))).byteLength,
                   textStart := (before ++ (lead ++ '$' :: '{' :: (raw ++ ['}']))).byteLength }
          (segmentsFrom (before ++ (lead ++ '$' :: '{' :: (raw ++ ['}']))).byteLength rest) :=
        .reading (before ++ (lead ++ '$' :: '{' :: (raw ++ ['}']))) rest
          (by simp [source]) rfl rfl rfl
          (by simp) pending finished
      obtain ⟨s', he, hready'⟩ := hready.deliver pending lead
        (.placeholder (Expression.parse raw) ⟨before.byteLength + lead.byteLength,
          (before ++ (lead ++ '$' :: '{' :: (raw ++ ['}']))).byteLength⟩)
      exact ⟨s', congrArg some he, hready'⟩

/-- **A run of questions.** A scanner that has the segments `l` to answer answers them in
order, and none after them. -/
theorem Ready.answer {s : Scanner} {l : List Segment} (h : Ready s l) (n : Nat) :
    s.answer n = some l[n]? := by
  induction n generalizing s l with
  | zero =>
    obtain ⟨s', he, -⟩ := h.next
    rw [Scanner.answer, he, Option.map_some, List.head?_eq_getElem?]
  | succ n ih =>
    obtain ⟨s', he, h'⟩ := h.next
    rw [Scanner.answer, he, Option.bind_some, ih h', List.getElem?_tail]

end Scanner

/-- **The segments of a text are its only segmentation, and a scanner answers exactly them.** The
scanner never fails: no slice misses a character boundary and no level falls below zero. After the
last segment it keeps answering with none. -/
theorem isSegmentation_iff_and_scanner_answer (t : Text) :
    (∀ l, IsSegmentation t l ↔ l = segments t) ∧
      ∀ n, (Scanner.ofText t).answer n = some (segments t)[n]? := by
  refine ⟨fun l => ⟨eq_segments_of_isSegmentation, ?_⟩, (Scanner.ready_ofText t).answer⟩
  rintro rfl
  exact isSegmentation_segments t

end Interpolation

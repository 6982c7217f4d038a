import Interpolation.Template.Segment

/-!
# Interpolation.Proofs.Braces

The delimiters of placeholders, described **by counting braces** and without a scan.

* `StaysOpen level t`: no prefix of `t` closes more braces than it opens and `level` others. It says
  exactly when `closing` finds nothing (`closing_eq_none_iff`).
* `BraceBalanced t`: the braces of `t` are balanced. It says exactly which bodies `closing` cuts off
  (`closing_zero_eq_some_iff`).
* `HasOpening t`: a `${` stands somewhere in `t`.

Together they say where the first placeholder of a text is (`Opening.find_closed` and its
neighbours), and they give texts their own induction principle (`Text.segmentInduction`): a text has
no placeholder, or one that is never closed, or a complete one with a shorter text after it.
-/

namespace Interpolation

namespace Text

/-! ### Counting -/

/-- The number of braces that the text opens. -/
def opens (t : Text) : Nat := t.count '{'

/-- The number of braces that the text closes. -/
def closes (t : Text) : Nat := t.count '}'

@[simp] theorem opens_nil : opens [] = 0 := rfl

@[simp] theorem closes_nil : closes [] = 0 := rfl

@[simp] theorem opens_append (s t : Text) : opens (s ++ t) = opens s + opens t := List.count_append

@[simp] theorem closes_append (s t : Text) : closes (s ++ t) = closes s + closes t :=
  List.count_append

theorem opens_cons (c : Char) (t : Text) :
    opens (c :: t) = opens t + if c = '{' then 1 else 0 := by
  simp [opens, List.count_cons]

theorem closes_cons (c : Char) (t : Text) :
    closes (c :: t) = closes t + if c = '}' then 1 else 0 := by
  simp [closes, List.count_cons]

@[simp] theorem opens_cons_open (t : Text) : opens ('{' :: t) = opens t + 1 := by simp [opens_cons]

@[simp] theorem closes_cons_open (t : Text) : closes ('{' :: t) = closes t := by simp [closes_cons]

@[simp] theorem opens_cons_close (t : Text) : opens ('}' :: t) = opens t := by simp [opens_cons]

@[simp] theorem closes_cons_close (t : Text) : closes ('}' :: t) = closes t + 1 := by
  simp [closes_cons]

end Text

/-! ### Levels that do not fall below zero -/

/-- With `level` braces open before it, the text never closes more than are open. -/
def StaysOpen (level : Nat) (t : Text) : Prop :=
  ∀ p : Text, p <+: t → p.closes ≤ p.opens + level

/-- The braces of the text are balanced: none is closed before it is opened, and all
are closed at the end. -/
structure BraceBalanced (t : Text) : Prop where
  /-- No brace is closed before it is opened. -/
  staysOpen : StaysOpen 0 t
  /-- Every brace is closed. -/
  closes_eq : t.closes = t.opens

@[simp] theorem staysOpen_nil (level : Nat) : StaysOpen level [] := by
  intro p hp
  simp [List.prefix_nil.1 hp]

/-- A text stays open if its first character does and the rest stays open at the level after it. -/
theorem staysOpen_cons_iff {level : Nat} {c : Char} {t : Text} :
    StaysOpen level (c :: t) ↔
      ∀ p : Text, p <+: t → Text.closes (c :: p) ≤ Text.opens (c :: p) + level := by
  constructor
  · intro h p hp
    exact h (c :: p) (List.cons_prefix_cons.2 ⟨rfl, hp⟩)
  · intro h p hp
    rcases List.prefix_cons_iff.1 hp with rfl | ⟨p', rfl, hp'⟩
    · simp
    · exact h p' hp'

@[simp] theorem staysOpen_cons_open {level : Nat} {t : Text} :
    StaysOpen level ('{' :: t) ↔ StaysOpen (level + 1) t := by
  rw [staysOpen_cons_iff, StaysOpen]
  refine forall₂_congr fun p _ => ?_
  simp only [Text.closes_cons_open, Text.opens_cons_open]
  omega

@[simp] theorem staysOpen_succ_cons_close {level : Nat} {t : Text} :
    StaysOpen (level + 1) ('}' :: t) ↔ StaysOpen level t := by
  rw [staysOpen_cons_iff, StaysOpen]
  refine forall₂_congr fun p _ => ?_
  simp only [Text.closes_cons_close, Text.opens_cons_close]
  omega

@[simp] theorem not_staysOpen_zero_cons_close {t : Text} : ¬ StaysOpen 0 ('}' :: t) := by
  intro h
  have := h ['}'] (List.cons_prefix_cons.2 ⟨rfl, List.nil_prefix⟩)
  simp at this

theorem staysOpen_cons_of_ne {level : Nat} {c : Char} {t : Text} (ho : c ≠ '{') (hc : c ≠ '}') :
    StaysOpen level (c :: t) ↔ StaysOpen level t := by
  rw [staysOpen_cons_iff, StaysOpen]
  simp only [Text.closes_cons, Text.opens_cons, if_neg ho, if_neg hc, Nat.add_zero]

theorem BraceBalanced.cons {c : Char} {t : Text} (h : BraceBalanced t) (ho : c ≠ '{')
    (hc : c ≠ '}') : BraceBalanced (c :: t) := by
  refine ⟨(staysOpen_cons_of_ne ho hc).2 h.staysOpen, ?_⟩
  simpa only [Text.closes_cons, Text.opens_cons, if_neg ho, if_neg hc, Nat.add_zero]
    using h.closes_eq

/-- In a balanced text every suffix closes at least as many braces as it opens. -/
theorem BraceBalanced.opens_le_closes_of_suffix {s t : Text} (h : BraceBalanced t) (hs : s <:+ t) :
    s.opens ≤ s.closes := by
  obtain ⟨p, rfl⟩ := hs
  have hp := h.staysOpen p (List.prefix_append p s)
  have heq := h.closes_eq
  simp only [Text.closes_append, Text.opens_append] at heq
  omega

/-! ### Where a placeholder closes -/

/-- A closing brace is missing exactly if the text stays open. -/
theorem closing_eq_none_iff {level : Nat} {t : Text} :
    closing level t = none ↔ StaysOpen level t := by
  induction t generalizing level with
  | nil => simp [closing]
  | cons c t ih =>
    rw [closing]
    split
    · rename_i ho
      rw [Option.map_eq_none_iff, ih, ho, staysOpen_cons_open]
    · rename_i ho
      split
      · rename_i hc
        subst hc
        cases level with
        | zero => simp
        | succ level =>
          rw [if_neg (Nat.succ_ne_zero level), Option.map_eq_none_iff, ih,
            staysOpen_succ_cons_close]
          rfl
      · rename_i hc
        rw [Option.map_eq_none_iff, ih, staysOpen_cons_of_ne ho hc]

instance (level : Nat) (t : Text) : Decidable (StaysOpen level t) :=
  decidable_of_iff (closing level t = none) closing_eq_none_iff

instance (t : Text) : Decidable (BraceBalanced t) :=
  decidable_of_iff (StaysOpen 0 t ∧ t.closes = t.opens)
    ⟨fun h => ⟨h.1, h.2⟩, fun h => ⟨h.staysOpen, h.closes_eq⟩⟩

/-- The text before a closing brace stays open, and the brace closes the last level. -/
theorem closing_append {level : Nat} {raw : Text} (hr : StaysOpen level raw)
    (heq : raw.closes = raw.opens + level) (rest : Text) :
    closing level (raw ++ '}' :: rest) = some (raw, rest) := by
  induction raw generalizing level with
  | nil =>
    obtain rfl : level = 0 := by simpa using heq.symm
    simp [closing]
  | cons c raw ih =>
    rw [List.cons_append, closing]
    split
    · rename_i ho
      subst ho
      rw [staysOpen_cons_open] at hr
      rw [ih hr (by simp only [Text.closes_cons_open, Text.opens_cons_open] at heq; omega)]
      rfl
    · rename_i ho
      split
      · rename_i hc
        subst hc
        cases level with
        | zero => exact absurd hr not_staysOpen_zero_cons_close
        | succ level =>
          rw [staysOpen_succ_cons_close] at hr
          rw [if_neg (Nat.succ_ne_zero level), Nat.add_sub_cancel,
            ih hr (by simp only [Text.closes_cons_close, Text.opens_cons_close] at heq; omega)]
          rfl
      · rename_i hc
        rw [staysOpen_cons_of_ne ho hc] at hr
        simp only [Text.closes_cons, Text.opens_cons, if_neg ho, if_neg hc, Nat.add_zero] at heq
        rw [ih hr heq]
        rfl

/-- What `closing` cuts off stays open and closes every level but the one that the
brace itself closes. -/
theorem staysOpen_of_closing_eq_some {level : Nat} {t raw rest : Text}
    (h : closing level t = some (raw, rest)) :
    StaysOpen level raw ∧ raw.closes = raw.opens + level := by
  induction t generalizing level raw with
  | nil => simp [closing] at h
  | cons c t ih =>
    rw [closing] at h
    split at h
    · rename_i ho
      obtain ⟨⟨raw', rest'⟩, hp, he⟩ := Option.map_eq_some_iff.1 h
      obtain ⟨rfl, rfl⟩ := Prod.mk.inj he
      obtain ⟨hopen, heq⟩ := ih hp
      subst ho
      refine ⟨staysOpen_cons_open.2 hopen, ?_⟩
      simp only [Text.closes_cons_open, Text.opens_cons_open]
      omega
    · rename_i ho
      split at h
      · rename_i hc
        subst hc
        cases level with
        | zero =>
          obtain ⟨rfl, rfl⟩ := Prod.mk.inj (Option.some.inj h)
          simp
        | succ level =>
          obtain ⟨⟨raw', rest'⟩, hp, he⟩ := Option.map_eq_some_iff.1 h
          obtain ⟨rfl, rfl⟩ := Prod.mk.inj he
          obtain ⟨hopen, heq⟩ := ih hp
          rw [Nat.add_sub_cancel] at hopen heq
          refine ⟨staysOpen_succ_cons_close.2 hopen, ?_⟩
          simp only [Text.closes_cons_close, Text.opens_cons_close]
          omega
      · rename_i hc
        obtain ⟨⟨raw', rest'⟩, hp, he⟩ := Option.map_eq_some_iff.1 h
        obtain ⟨rfl, rfl⟩ := Prod.mk.inj he
        obtain ⟨hopen, heq⟩ := ih hp
        refine ⟨(staysOpen_cons_of_ne ho hc).2 hopen, ?_⟩
        simpa only [Text.closes_cons, Text.opens_cons, if_neg ho, if_neg hc, Nat.add_zero] using heq

/-- A placeholder's body is balanced and followed by the brace that closes it. -/
theorem closing_zero_eq_some_iff {t raw rest : Text} :
    closing 0 t = some (raw, rest) ↔ t = raw ++ '}' :: rest ∧ BraceBalanced raw := by
  constructor
  · intro h
    obtain ⟨hopen, heq⟩ := staysOpen_of_closing_eq_some h
    exact ⟨eq_of_closing_eq_some h, hopen, heq⟩
  · rintro ⟨rfl, hopen, heq⟩
    exact closing_append hopen heq rest

/-! ### Where a placeholder opens -/

/-- A `${` stands somewhere in the text. -/
def HasOpening (t : Text) : Prop := ['$', '{'] <:+: t

theorem not_hasOpening_nil : ¬ HasOpening [] := by
  simp [HasOpening]

/-- An opening stands at the beginning or further on. -/
theorem hasOpening_cons_iff {c : Char} {t : Text} :
    HasOpening (c :: t) ↔ (c = '$' ∧ t.head? = some '{') ∨ HasOpening t := by
  rw [HasOpening, List.infix_cons_iff]
  refine or_congr ?_ Iff.rfl
  cases t <;> simp [eq_comm]

theorem HasOpening.mono {s t : Text} (h : HasOpening s) (hs : s <:+: t) : HasOpening t :=
  List.IsInfix.trans h hs

/-- An opening in two texts put together stands in one of them, or the texts meet
between `$` and `{`. -/
theorem hasOpening_append_iff {s t : Text} :
    HasOpening (s ++ t) ↔
      HasOpening s ∨ HasOpening t ∨ (s.getLast? = some '$' ∧ t.head? = some '{') := by
  induction s with
  | nil => simp [not_hasOpening_nil]
  | cons c s ih =>
    rw [List.cons_append, hasOpening_cons_iff, hasOpening_cons_iff, ih]
    cases s with
    | nil => simp [not_hasOpening_nil, or_comm]
    | cons d s => simp only [List.cons_append, List.head?_cons, List.getLast?_cons_cons, or_assoc]

theorem splitOpening_of_not_hasOpening {t : Text} (h : ¬ HasOpening t) :
    splitOpening t = (t, none) := by
  fun_induction splitOpening t with
  | case1 body => exact absurd (hasOpening_cons_iff.2 (Or.inl ⟨rfl, rfl⟩)) h
  | case2 c t _ ih => rw [ih fun ht => h (hasOpening_cons_iff.2 (Or.inr ht))]; rfl
  | case3 => rfl

/-- The first opening is the one with no opening before it. -/
theorem splitOpening_append {lead : Text} (h : ¬ HasOpening lead) (body : Text) :
    splitOpening (lead ++ '$' :: '{' :: body) = (lead, some body) := by
  induction lead with
  | nil => rfl
  | cons c lead ih =>
    rw [hasOpening_cons_iff, not_or] at h
    have hne : ∀ body', c :: (lead ++ '$' :: '{' :: body) ≠ '$' :: '{' :: body' := by
      intro body' he
      obtain ⟨hc, ht⟩ := List.cons.inj he
      refine h.1 ⟨hc, ?_⟩
      cases lead with
      | nil => simp at ht
      | cons d lead => simpa using (List.cons.inj ht).1
    rw [List.cons_append,
      splitOpening.eq_2 c _ (fun body' h₁ h₂ => hne body' (by rw [h₁, h₂])), ih h.2]
    rfl

/-- A text with an opening has a first one. -/
theorem exists_first_opening {t : Text} (h : HasOpening t) :
    ∃ lead body : Text, t = lead ++ '$' :: '{' :: body ∧ ¬ HasOpening lead := by
  induction t with
  | nil => exact absurd h not_hasOpening_nil
  | cons c t ih =>
    by_cases hhead : c = '$' ∧ t.head? = some '{'
    · obtain ⟨rfl, ht⟩ := hhead
      obtain ⟨body, rfl⟩ := List.head?_eq_some_iff.1 ht
      exact ⟨[], body, rfl, not_hasOpening_nil⟩
    · obtain ⟨lead, body, rfl, hlead⟩ := ih ((hasOpening_cons_iff.1 h).resolve_left hhead)
      refine ⟨c :: lead, body, rfl, fun hc => ?_⟩
      rcases hasOpening_cons_iff.1 hc with ⟨hd, hl⟩ | hl
      · obtain ⟨lead', rfl⟩ := List.head?_eq_some_iff.1 hl
        exact hhead ⟨hd, rfl⟩
      · exact hlead hl

/-! ### The first placeholder -/

namespace Opening

theorem find_of_not_hasOpening {t : Text} (h : ¬ HasOpening t) : find t = .absent := by
  rw [find, splitOpening_of_not_hasOpening h]

theorem find_unclosed {lead body : Text} (hl : ¬ HasOpening lead) (hb : StaysOpen 0 body) :
    find (lead ++ '$' :: '{' :: body) = .unclosed lead body := by
  simp only [find, splitOpening_append hl, closing_eq_none_iff.2 hb]

theorem find_closed {lead raw : Text} (hl : ¬ HasOpening lead) (hr : BraceBalanced raw)
    (rest : Text) : find (lead ++ '$' :: '{' :: (raw ++ '}' :: rest)) = .closed lead raw rest := by
  simp only [find, splitOpening_append hl, closing_zero_eq_some_iff.2 ⟨rfl, hr⟩]

end Opening

/-- **Induction along the placeholders of a text.** A text has no placeholder, or its first one is
never closed, or its first one is complete and a shorter text follows. -/
@[elab_as_elim]
theorem Text.segmentInduction {motive : Text → Prop}
    (plain : ∀ t, ¬ HasOpening t → motive t)
    (unclosed : ∀ lead body, ¬ HasOpening lead → StaysOpen 0 body →
      motive (lead ++ '$' :: '{' :: body))
    (closed : ∀ lead raw rest, ¬ HasOpening lead → BraceBalanced raw → motive rest →
      motive (lead ++ '$' :: '{' :: (raw ++ '}' :: rest)))
    (t : Text) : motive t := by
  induction h : t.length using Nat.strongRecOn generalizing t with
  | ind n ih =>
    by_cases ht : HasOpening t
    · obtain ⟨lead, body, rfl, hl⟩ := exists_first_opening ht
      cases hc : closing 0 body with
      | none => exact unclosed lead body hl (closing_eq_none_iff.1 hc)
      | some p =>
        obtain ⟨rfl, hr⟩ := closing_zero_eq_some_iff.1 hc
        refine closed lead p.1 p.2 hl hr (ih p.2.length ?_ p.2 rfl)
        rw [← h]
        simp only [List.length_append, List.length_cons]
        omega
    · exact plain t ht

/-! ### Segments -/

/-- A text without an opening is one literal. -/
theorem segmentsFrom_of_not_hasOpening {t : Text} (h : ¬ HasOpening t) (start : Nat) :
    segmentsFrom start t = literalSegments t := by
  rw [segmentsFrom]
  split
  · rfl
  · rename_i hfind
    rw [Opening.find_of_not_hasOpening h] at hfind
    cases hfind
  · rename_i hfind
    rw [Opening.find_of_not_hasOpening h] at hfind
    cases hfind

/-- A placeholder that is never closed is the last segment. -/
theorem segmentsFrom_unclosed {lead body : Text} (hl : ¬ HasOpening lead) (hb : StaysOpen 0 body)
    (start : Nat) :
    segmentsFrom start (lead ++ '$' :: '{' :: body) =
      literalSegments lead ++
        [.unterminated ⟨start + lead.byteLength,
          start + (lead ++ '$' :: '{' :: body).byteLength⟩] := by
  rw [segmentsFrom]
  split
  · rename_i hfind
    rw [Opening.find_unclosed hl hb] at hfind
    cases hfind
  · rename_i hfind
    rw [Opening.find_unclosed hl hb] at hfind
    cases hfind
    rfl
  · rename_i hfind
    rw [Opening.find_unclosed hl hb] at hfind
    cases hfind

/-- After a complete placeholder the segments are those of the text behind it. -/
theorem segmentsFrom_closed {lead raw : Text} (hl : ¬ HasOpening lead) (hr : BraceBalanced raw)
    (rest : Text) (start : Nat) :
    segmentsFrom start (lead ++ '$' :: '{' :: (raw ++ '}' :: rest)) =
      literalSegments lead ++
        .placeholder (Expression.parse raw)
          ⟨start + lead.byteLength, start + lead.byteLength + raw.byteLength + 3⟩ ::
        segmentsFrom (start + lead.byteLength + raw.byteLength + 3) rest := by
  rw [segmentsFrom]
  split
  · rename_i hfind
    rw [Opening.find_closed hl hr] at hfind
    cases hfind
  · rename_i hfind
    rw [Opening.find_closed hl hr] at hfind
    cases hfind
  · rename_i hfind
    rw [Opening.find_closed hl hr] at hfind
    cases hfind
    rfl

/-! ### Which segments a text has -/

theorem eq_literal_of_mem_literalSegments {t : Text} {s : Segment} (h : s ∈ literalSegments t) :
    s = .literal t := by
  unfold literalSegments at h
  split at h
  · cases h
  · exact List.mem_singleton.1 h

theorem mem_segmentsFrom_unclosed {lead body : Text} (hl : ¬ HasOpening lead)
    (hb : StaysOpen 0 body) {start : Nat} {s : Segment} :
    s ∈ segmentsFrom start (lead ++ '$' :: '{' :: body) ↔
      s ∈ literalSegments lead ∨
        s =
          .unterminated ⟨start + lead.byteLength,
            start + (lead ++ '$' :: '{' :: body).byteLength⟩ := by
  rw [segmentsFrom_unclosed hl hb, List.mem_append, List.mem_singleton]

theorem mem_segmentsFrom_closed {lead raw rest : Text} (hl : ¬ HasOpening lead)
    (hr : BraceBalanced raw) {start : Nat} {s : Segment} :
    s ∈ segmentsFrom start (lead ++ '$' :: '{' :: (raw ++ '}' :: rest)) ↔
      s ∈ literalSegments lead ∨
        s = .placeholder (Expression.parse raw)
          ⟨start + lead.byteLength, start + lead.byteLength + raw.byteLength + 3⟩ ∨
        s ∈ segmentsFrom (start + lead.byteLength + raw.byteLength + 3) rest := by
  rw [segmentsFrom_closed hl hr, List.mem_append, List.mem_cons]

end Interpolation

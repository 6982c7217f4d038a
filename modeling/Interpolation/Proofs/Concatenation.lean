import Interpolation.Proofs.Joins
import Interpolation.Proofs.Reading

/-!
# Interpolation.Proofs.Concatenation

Reading **one text behind another**.

A text whose placeholders are all closed is read as it is read by itself, whatever follows it,
unless it ends with a `$` and a `{` follows (`Seamless`). Only the literal that ends it and the
literal that begins what follows become one (`segmentsFrom_append`). A text that does not even end
with a `$` can stand before anything (`SelfContained`), and what two such texts expand to is put
together from what each one expands to (`SelfContained.output_append`).
-/

namespace Interpolation

variable {P : Expression → Prop}

/-! ### Where two texts meet -/

/-- The texts do not meet between a `$` and a `{`. -/
def Seamless (a b : Text) : Prop := ¬ (a.getLast? = some '$' ∧ b.head? = some '{')

theorem Seamless.of_append (front : Text) {a b : Text} (h : Seamless (front ++ a) b) :
    Seamless a b := by
  rintro ⟨hlast, hhead⟩
  exact h ⟨by rw [List.getLast?_append, hlast]; rfl, hhead⟩

theorem Seamless.not_hasOpening_append {a b : Text} (h : Seamless a b) (ha : ¬ HasOpening a)
    (hb : ¬ HasOpening b) : ¬ HasOpening (a ++ b) := by
  rw [hasOpening_append_iff]
  rintro (ho | ho | hmeet)
  · exact ha ho
  · exact hb ho
  · exact h hmeet

/-- What begins with `lead` meets `a` where `lead` does. -/
theorem Seamless.to_lead {a lead tail : Text} (h : Seamless a (lead ++ tail)) :
    Seamless a lead := by
  rintro ⟨hlast, hhead⟩
  refine h ⟨hlast, ?_⟩
  rw [List.head?_append, hhead]
  rfl

theorem AllPlaceholders.append {a b : Text} (ha : AllPlaceholders P a) (hb : AllPlaceholders P b)
    (h : Seamless a b) : AllPlaceholders P (a ++ b) := by
  induction ha with
  | plain ha =>
    cases hb with
    | plain hb => exact .plain (h.not_hasOpening_append ha hb)
    | closed hl hr hp hrest =>
      rw [← List.append_assoc]
      exact .closed (h.to_lead.not_hasOpening_append ha hl) hr hp hrest
  | @closed lead raw rest hl hr hp _ ih =>
    have hrest : Seamless rest b := by
      refine Seamless.of_append (lead ++ '$' :: '{' :: (raw ++ ['}'])) ?_
      simpa using h
    have hread := AllPlaceholders.closed hl hr hp (ih hrest)
    simpa using hread

/-! ### Segments of two texts -/

/-- One sequence of segments behind another. A literal at the end of the first and a literal at the
beginning of the second become one. -/
def glue : List Segment → List Segment → List Segment
  | [], l => l
  | [.literal u], .literal v :: l => .literal (u ++ v) :: l
  | s :: l, l' => s :: glue l l'

/-- Either no literals meet, or exactly one of each side does. -/
theorem glue_cases (l l' : List Segment) :
    glue l l' = l ++ l' ∨
      ∃ (front : List Segment) (u v : Text) (back : List Segment),
        l = front ++ [.literal u] ∧ l' = .literal v :: back ∧
          glue l l' = front ++ .literal (u ++ v) :: back := by
  fun_induction glue l l' with
  | case1 l => exact .inl rfl
  | case2 u v l => exact .inr ⟨[], u, v, l, rfl, rfl, rfl⟩
  | case3 s l l' _ ih =>
    rcases ih with h | ⟨front, u, v, back, rfl, rfl, h⟩
    · exact .inl (congrArg (s :: ·) h)
    · exact .inr ⟨s :: front, u, v, back, rfl, rfl, congrArg (s :: ·) h⟩

theorem glue_cons_of_not_isLiteral {s : Segment} (hs : ¬ s.isLiteral) (l l' : List Segment) :
    glue (s :: l) l' = s :: glue l l' := by
  cases s with
  | literal text => exact absurd rfl hs
  | placeholder e span => rw [glue]; simp
  | unterminated span => rw [glue]; simp

theorem glue_literalSegments_append {s : Segment} (hs : ¬ s.isLiteral) (t : Text)
    (l l' : List Segment) :
    glue (literalSegments t ++ s :: l) l' = literalSegments t ++ s :: glue l l' := by
  unfold literalSegments
  split
  · exact glue_cons_of_not_isLiteral hs l l'
  · rw [List.singleton_append, glue, glue_cons_of_not_isLiteral hs]
    · rfl
    · simp

/-- Literal text behind literal text is one literal. -/
theorem glue_literalSegments (a b : Text) {l : List Segment} (hl : ∀ s ∈ l.head?, ¬ s.isLiteral) :
    glue (literalSegments a) (literalSegments b ++ l) = literalSegments (a ++ b) ++ l := by
  by_cases ha : a = []
  · subst ha
    rfl
  have hab : a ++ b ≠ [] := fun h => ha (List.append_eq_nil_iff.1 h).1
  simp only [literalSegments, if_neg ha, if_neg hab]
  by_cases hb : b = []
  · subst hb
    rw [if_pos rfl, List.nil_append, List.append_nil]
    cases l with
    | nil => rfl
    | cons s l =>
      cases s with
      | literal text => exact absurd rfl (hl _ rfl)
      | placeholder e span => rfl
      | unterminated span => rfl
  · rw [if_neg hb]
    rfl

/-- **Reading goes on behind a text whose placeholders are all closed.** -/
theorem segmentsFrom_append {a b : Text} (ha : AllPlaceholders P a) (h : Seamless a b)
    (start : Nat) :
    segmentsFrom start (a ++ b) =
      glue (segmentsFrom start a) (segmentsFrom (start + a.byteLength) b) := by
  induction ha generalizing start with
  | @plain a ha =>
    -- The first placeholder of `b` is the first one of `a ++ b`, with `a` in front of
    -- what stands before it.
    rw [segmentsFrom_of_not_hasOpening ha]
    induction b using Text.segmentInduction with
    | plain b hb =>
      rw [segmentsFrom_of_not_hasOpening (h.not_hasOpening_append ha hb),
        segmentsFrom_of_not_hasOpening hb]
      have hglue := glue_literalSegments a b (l := []) (by simp)
      rw [List.append_nil, List.append_nil] at hglue
      exact hglue.symm
    | unclosed lead body hl hb =>
      have hlead : ¬ HasOpening (a ++ lead) := h.to_lead.not_hasOpening_append ha hl
      rw [← List.append_assoc, segmentsFrom_unclosed hlead hb, segmentsFrom_unclosed hl hb,
        glue_literalSegments a lead (by simp [Segment.isLiteral])]
      simp only [Text.byteLength_append, Nat.add_assoc]
    | closed lead raw rest hl hr _ =>
      have hlead : ¬ HasOpening (a ++ lead) := h.to_lead.not_hasOpening_append ha hl
      rw [← List.append_assoc, segmentsFrom_closed hlead hr, segmentsFrom_closed hl hr,
        glue_literalSegments a lead (by simp [Segment.isLiteral])]
      simp only [Text.byteLength_append, Nat.add_assoc]
  | @closed lead raw rest hl hr _ _ ih =>
    have hrest : Seamless rest b := by
      refine Seamless.of_append (lead ++ '$' :: '{' :: (raw ++ ['}'])) ?_
      simpa using h
    have htext : (lead ++ '$' :: '{' :: (raw ++ '}' :: rest)) ++ b =
        lead ++ '$' :: '{' :: (raw ++ '}' :: (rest ++ b)) := by
      simp
    have hlen : start + (lead ++ '$' :: '{' :: (raw ++ '}' :: rest)).byteLength =
        start + lead.byteLength + raw.byteLength + 3 + rest.byteLength := by
      rw [Text.byteLength_append, Text.byteLength_braced]
      omega
    rw [htext, segmentsFrom_closed hl hr, segmentsFrom_closed hl hr, hlen,
      glue_literalSegments_append (by simp [Segment.isLiteral]), ih hrest]

/-! ### What texts expand to, wherever they stand -/

namespace Template

theorem output_ofSegments_glue (r : Resolver) (base : Nat) (l l' : List Segment) :
    (ofSegments base (glue l l')).output r =
      (ofSegments base l).output r ++ (ofSegments base l').output r := by
  rcases glue_cases l l' with h | ⟨front, u, v, back, rfl, rfl, h⟩
  · rw [h, ofSegments_append, output_append]
  · simp only [h, ofSegments_append, output_append, ofSegments_literal, ofSegments_nil, output,
      List.append_nil, List.append_assoc]

/-- The text of an expansion does not depend on where the template stands. -/
theorem output_ofSegments_segmentsFrom (r : Resolver) (t : Text) (base start : Nat) :
    (ofSegments base (segmentsFrom start t)).output r = (ofText t).output r := by
  rw [ofText_eq_ofSegments, ← output_unplaced, unplaced_ofSegments_segmentsFrom t base start 0 0,
    output_unplaced]

theorem output_ofTextAt (r : Resolver) (base : Nat) (t : Text) :
    (ofTextAt base t).output r = (ofText t).output r := by
  rw [← output_unplaced, unplaced_ofTextAt, output_unplaced]

theorem output_ofText_of_not_hasOpening {t : Text} (h : ¬ HasOpening t) (r : Resolver) :
    (ofText t).output r = t := by
  rw [ofText_eq_ofSegments, segmentsFrom_of_not_hasOpening h, output_ofSegments_literalSegments]

end Template

/-! ### Texts that can stand before anything -/

/-- Every placeholder of the text is closed, and no `$` at its end can open another one. -/
structure SelfContained (t : Text) : Prop where
  /-- Every placeholder is closed. -/
  closed : AllPlaceholders (fun _ => True) t
  /-- The text does not end with `$`. -/
  last_ne : t.getLast? ≠ some '$'

theorem SelfContained.seamless {a : Text} (h : SelfContained a) (b : Text) : Seamless a b :=
  fun hmeet => h.last_ne hmeet.1

theorem selfContained_nil : SelfContained [] := ⟨.plain not_hasOpening_nil, by simp⟩

theorem selfContained_of_not_hasOpening {t : Text} (h : ¬ HasOpening t)
    (hlast : t.getLast? ≠ some '$') : SelfContained t :=
  ⟨.plain h, hlast⟩

theorem not_hasOpening_of_not_mem {t : Text} (h : '$' ∉ t) : ¬ HasOpening t :=
  fun ho => h (ho.mem List.mem_cons_self)

theorem selfContained_of_not_mem {t : Text} (h : '$' ∉ t) : SelfContained t :=
  selfContained_of_not_hasOpening (not_hasOpening_of_not_mem h) fun hlast =>
    h (List.mem_of_getLast? hlast)

/-- A placeholder that is written back is read as that placeholder. -/
theorem segments_written {raw : Text} (hr : BraceBalanced raw) :
    segments (Expression.parse raw).written =
      [.placeholder (Expression.parse raw) ⟨0, raw.byteLength + 3⟩] := by
  have hread := segmentsFrom_placeholder_append hr [] 0
  rwa [segmentsFrom_of_not_hasOpening not_hasOpening_nil, Nat.zero_add, List.append_nil] at hread

/-- A placeholder that is written back can stand before anything. -/
theorem selfContained_written {raw : Text} (hr : BraceBalanced raw) :
    SelfContained (Expression.parse raw).written := by
  constructor
  · exact allPlaceholders_written hr trivial
  · rw [Expression.written_parse, List.getLast?_concat]
    simp

theorem SelfContained.append {a b : Text} (ha : SelfContained a) (hb : SelfContained b) :
    SelfContained (a ++ b) := by
  refine ⟨ha.closed.append hb.closed (ha.seamless b), ?_⟩
  rw [List.getLast?_append]
  cases hlast : b.getLast? with
  | none => exact ha.last_ne
  | some c =>
    intro hc
    exact hb.last_ne (hlast.trans hc)

/-- What stands behind a self-contained text is expanded as it is by itself. -/
theorem SelfContained.output_append {a : Text} (ha : SelfContained a) (b : Text) (r : Resolver) :
    (Template.ofText (a ++ b)).output r =
      (Template.ofText a).output r ++ (Template.ofText b).output r := by
  have hread := segmentsFrom_append ha.closed (ha.seamless b) 0
  rw [Template.ofText_eq_ofSegments, hread, Template.output_ofSegments_glue,
    Template.output_ofSegments_segmentsFrom, Template.output_ofSegments_segmentsFrom]

end Interpolation

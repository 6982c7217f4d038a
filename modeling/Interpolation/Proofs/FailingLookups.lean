import Interpolation.Proofs.Reading

/-!
# Interpolation.Proofs.FailingLookups

Expanding with **look-ups that may fail**.

Such an expansion is one without failures that is cut short (`Run.cutShort`). Take any resolver that
gives the same answers where there are any. Up to the first name whose look-up fails both expansions
do the same, and there the one with failures ends, with the error as it came.

* `firstFailure` finds that place among the events of a run. It is told nothing of
  templates, limits or patterns.
* `Template.expandAt_eq_cutShort`: an expansion whose look-ups may fail, cut out of one whose
  look-ups do not. Which of a limit and a failure ends it needs no rule of its own: the limit
  ends the run that is cut.
* `expandText_cut_at_first_failure`: the same in terms of results and of the names that
  are asked for.
-/

namespace Interpolation

variable {ε : Type}

/-! ### The first failure -/

/-- The error of an event that asks for a name whose look-up fails. -/
def Event.failure? (lookup : Lookup ε) : Event → Option ε
  | .asked name =>
    match lookup name with
    | .error e => some e
    | .ok _ => none
  | _ => none

/-- The events up to the first one that fails, that one included, and its error. -/
def firstFailure (lookup : Lookup ε) : List Event → Option (List Event × ε)
  | [] => none
  | event :: events =>
    match event.failure? lookup with
    | some e => some ([event], e)
    | none => (firstFailure lookup events).map fun p => (event :: p.1, p.2)

theorem firstFailure_append (lookup : Lookup ε) (events events' : List Event) :
    firstFailure lookup (events ++ events') =
      match firstFailure lookup events with
      | some p => some p
      | none => (firstFailure lookup events').map fun p => (events ++ p.1, p.2) := by
  induction events with
  | nil => simp [firstFailure]
  | cons event events ih =>
    rw [List.cons_append, firstFailure, firstFailure, ih]
    cases event.failure? lookup with
    | some e => rfl
    | none =>
      cases firstFailure lookup events with
      | some p => rfl
      | none => cases firstFailure lookup events' <;> rfl

theorem Event.failure?_eq_none_iff {lookup : Lookup ε} {event : Event} :
    event.failure? lookup = none ↔ ∀ name ∈ event.name?, ∃ answer, lookup name = .ok answer := by
  cases event with
  | kept name => simp [failure?, name?]
  | dropped span => simp [failure?, name?]
  | asked name => cases hl : lookup name <;> simp [failure?, name?, hl]

theorem Event.eq_asked_of_failure?_eq_some {lookup : Lookup ε} {event : Event} {e : ε}
    (h : event.failure? lookup = some e) :
    ∃ name, event = .asked name ∧ lookup name = .error e := by
  cases event with
  | kept name => cases h
  | dropped span => cases h
  | asked name =>
    refine ⟨name, rfl, ?_⟩
    cases hl : lookup name with
    | ok answer => simp [failure?, hl] at h
    | error e' =>
      obtain rfl : e' = e := by simpa [failure?, hl] using h
      rfl

/-- Nothing fails exactly if every name that is asked for is looked up without an error. -/
theorem firstFailure_eq_none_iff {lookup : Lookup ε} {events : List Event} :
    firstFailure lookup events = none ↔
      ∀ name ∈ events.filterMap Event.name?, ∃ answer, lookup name = .ok answer := by
  induction events with
  | nil => simp [firstFailure]
  | cons event events ih =>
    rw [firstFailure, List.filterMap_cons]
    cases hfailure : event.failure? lookup with
    | some e =>
      obtain ⟨name, rfl, hl⟩ := Event.eq_asked_of_failure?_eq_some hfailure
      simp [Event.name?, hl]
    | none =>
      have hevent := Event.failure?_eq_none_iff.1 hfailure
      cases hname : event.name? with
      | none => simpa using ih
      | some name => simpa [hevent name hname] using ih

/-- The failing name is the first one that fails, and the last one that is asked for. -/
theorem exists_names_of_firstFailure_eq_some {lookup : Lookup ε} {events cut : List Event} {e : ε}
    (h : firstFailure lookup events = some (cut, e)) :
    ∃ before name after, events.filterMap Event.name? = before ++ name :: after ∧
      (∀ n ∈ before, ∃ answer, lookup n = .ok answer) ∧ lookup name = .error e ∧
      cut.filterMap Event.name? = before ++ [name] := by
  induction events generalizing cut with
  | nil => cases h
  | cons event events ih =>
    rw [firstFailure] at h
    cases hfailure : event.failure? lookup with
    | some e' =>
      simp only [hfailure, Option.some.injEq, Prod.mk.injEq] at h
      obtain ⟨rfl, rfl⟩ := h
      obtain ⟨name, rfl, hl⟩ := Event.eq_asked_of_failure?_eq_some hfailure
      exact ⟨[], name, events.filterMap Event.name?, rfl,
        fun _ hn => (List.not_mem_nil hn).elim, hl, rfl⟩
    | none =>
      rw [hfailure] at h
      obtain ⟨⟨cut', e'⟩, hcut, he⟩ := Option.map_eq_some_iff.1 h
      obtain ⟨rfl, rfl⟩ := Prod.mk.inj he
      obtain ⟨before, name, after, hnames, hbefore, hl, hlast⟩ := ih hcut
      have hevent := Event.failure?_eq_none_iff.1 hfailure
      rw [List.filterMap_cons, List.filterMap_cons, hnames, hlast]
      cases hname : event.name? with
      | none => exact ⟨before, name, after, rfl, hbefore, hl, rfl⟩
      | some first =>
        exact ⟨first :: before, name, after, rfl,
          List.forall_mem_cons.2 ⟨hevent first hname, hbefore⟩, hl, rfl⟩

/-! ### Runs that are cut short -/

/-- A halt that no failure caused. -/
def Halt.ofTotal : Halt Empty → Halt ε
  | .tooDeep limit => .tooDeep limit

namespace Run

/-- The run up to the first name whose look-up fails. It ends there with the error; without a
failure it is the whole run. -/
def cutShort {α : Type} (lookup : Lookup ε) (r : Run (Halt Empty) α) : Run (Halt ε) α :=
  match firstFailure lookup r.events with
  | some (events, e) => ⟨events, .error (.failed e)⟩
  | none => ⟨r.events, r.result.mapError Halt.ofTotal⟩

@[simp] theorem cutShort_pure {α : Type} (lookup : Lookup ε) (a : α) :
    (pure a : Run (Halt Empty) α).cutShort lookup = pure a := rfl

theorem cutShort_after_of_failure {α : Type} {lookup : Lookup ε} {event : Event} {e : ε}
    (h : event.failure? lookup = some e) (r : Run (Halt Empty) α) :
    (r.after event).cutShort lookup = (fail (.failed e)).after event := by
  simp only [cutShort, events_after, firstFailure, h]
  rfl

theorem cutShort_after {α : Type} {lookup : Lookup ε} {event : Event}
    (h : event.failure? lookup = none) (r : Run (Halt Empty) α) :
    (r.after event).cutShort lookup = (r.cutShort lookup).after event := by
  simp only [cutShort, events_after, firstFailure, h]
  cases firstFailure lookup r.events <;> rfl

/-- A run of two parts is cut in the first one, or else in the second. -/
theorem cutShort_append (lookup : Lookup ε) (r s : Run (Halt Empty) Text) :
    (r.append s).cutShort lookup = (r.cutShort lookup).append (s.cutShort lookup) := by
  obtain ⟨events, result⟩ := r
  obtain ⟨events', result'⟩ := s
  cases result with
  | error halt =>
    simp only [append, cutShort]
    cases firstFailure lookup events <;> rfl
  | ok text =>
    simp only [append, cutShort, firstFailure_append]
    cases firstFailure lookup events with
    | some p => rfl
    | none =>
      cases firstFailure lookup events' with
      | some p => rfl
      | none => cases result' <;> rfl

end Run

/-! ### Expansions -/

section Completion

variable {lookup : Lookup ε} {r : Resolver}

/-- The resolver may answer as it likes where the look-up fails. -/
theorem Expression.ask_eq_cutShort (h : ∀ name answer, lookup name = .ok answer → r name = answer)
    (e : Expression) {use : Text → Run (Halt ε) Text} {use' : Text → Run (Halt Empty) Text}
    (huse : ∀ replacement, use replacement = (use' replacement).cutShort lookup) :
    e.ask lookup use = (e.ask r.total use').cutShort lookup := by
  rw [ask, ask, Resolver.total]
  cases hl : lookup e.name with
  | error error =>
    have hfailure : (Event.asked e.name).failure? lookup = some error := by
      simp only [Event.failure?, hl]
    rw [Run.cutShort_after_of_failure hfailure]
  | ok answer =>
    have hfailure : (Event.asked e.name).failure? lookup = none := by simp only [Event.failure?, hl]
    rw [Run.cutShort_after hfailure, h e.name answer hl]
    cases answer with
    | none => rfl
    | some replacement => exact congrArg _ (huse replacement)

/-- **An expansion with failing look-ups is one without failures, cut short.** -/
theorem Template.expandAt_eq_cutShort
    (h : ∀ name answer, lookup name = .ok answer → r name = answer) (limit : Option Nat)
    (t : Template) (depth : Nat) :
    t.expandAt lookup limit depth = (t.expandAt r.total limit depth).cutShort lookup := by
  induction t generalizing depth with
  | done => rfl
  | literal text rest ih =>
    rw [expandAt, expandAt, Run.cutShort_append, Run.cutShort_pure, ih]
  | placeholder e span rest ih =>
    rw [expandAt, expandAt, Run.cutShort_append, ih]
    exact congrArg (Run.append · _) (e.ask_eq_cutShort h fun _ => rfl)
  | conditional e span pattern rest ihp ih =>
    rw [expandAt, expandAt, Run.cutShort_append, ih]
    refine congrArg (Run.append · _) (e.ask_eq_cutShort h ?_)
    intro replacement
    by_cases htaken : e.takesPattern replacement
    · simp only [htaken, if_true]
      cases withinLimit limit depth with
      | error n => rfl
      | ok _ => exact ihp (depth + 1)
    · simp only [htaken, Bool.false_eq_true, if_false, Run.cutShort_pure]
  | unterminated span rest ih =>
    rw [expandAt, expandAt, Run.cutShort_after rfl, ih]

/-- **Failing look-ups only cut an expansion short.** Let a resolver give the same answers as
look-ups that may fail, where these give any. If none of the names that are asked for against the
resolver fails, the expansion with the look-ups asks for the same names and has the same result.
Otherwise it asks for the same names up to the first one that fails, and its result is the error of
that one. Without a limit there is no other way to fail. -/
theorem expandText_cut_at_first_failure
    (h : ∀ name answer, lookup name = .ok answer → r name = answer)
    (limit : Option Nat) (t : Text) :
    let total := expandText r.total limit t
    let run := expandText lookup limit t
    ((∀ name ∈ total.names, ∃ answer, lookup name = .ok answer) →
        run.names = total.names ∧ run.result = total.result.mapError Halt.ofTotal) ∧
      ((∃ name ∈ total.names, ∃ e, lookup name = .error e) →
        ∃ before name after e, total.names = before ++ name :: after ∧
          (∀ n ∈ before, ∃ answer, lookup n = .ok answer) ∧ lookup name = .error e ∧
          run.names = before ++ [name] ∧ run.result = .error (.failed e)) ∧
      (limit = none → ∃ result : Except ε Text, run.result = result.mapError Halt.failed) := by
  intro total run
  have hrun : run = total.cutShort lookup :=
    Template.expandAt_eq_cutShort h limit (Template.ofText t) 0
  rw [hrun, Run.cutShort]
  cases hfirst : firstFailure lookup total.events with
  | none =>
    have hall := firstFailure_eq_none_iff.1 hfirst
    refine ⟨fun _ => ⟨rfl, rfl⟩, ?_, ?_⟩
    · rintro ⟨name, hname, e, he⟩
      obtain ⟨answer, hanswer⟩ := hall name hname
      rw [he] at hanswer
      cases hanswer
    · rintro rfl
      refine ⟨.ok ((Template.ofText t).output r), ?_⟩
      have htotal : total.result = .ok ((Template.ofText t).output r) := by
        show (expandText r.total none t).result = _
        rw [Template.expandText_total]
      simp only [htotal]
      rfl
  | some p =>
    obtain ⟨cut, e⟩ := p
    obtain ⟨before, name, after, hnames, hbefore, hl, hcut⟩ :=
      exists_names_of_firstFailure_eq_some hfirst
    refine ⟨?_, fun _ => ⟨before, name, after, e, hnames, hbefore, hl, hcut, rfl⟩,
      fun _ => ⟨.error e, rfl⟩⟩
    intro hall
    rw [firstFailure_eq_none_iff.2 hall] at hfirst
    cases hfirst

end Completion

/-- The failing name stands in a pattern. The name behind the pattern is not asked for any more. -/
theorem expandText_cut_inside_pattern :
    let lookup : Lookup Nat := fun name => if name = ['b'] then .error 7 else .ok (some name)
    let r : Resolver := fun name => some name
    let t := ['$', '{', 'a', '?', '-', '$', '{', 'b', '}', '}', '$', '{', 'c', '}']
    (∀ name answer, lookup name = .ok answer → r name = answer) ∧
      (expandText r.total (some 1) t).names = [['a'], ['b'], ['c']] ∧
      (expandText lookup (some 1) t).names = [['a'], ['b']] ∧
      (expandText lookup (some 1) t).result = .error (.failed 7) := by
  intro lookup r t
  have hagree : ∀ name answer, lookup name = .ok answer → r name = answer := by
    intro name answer h
    by_cases hb : name = ['b']
    · simp [lookup, hb] at h
    · simpa [lookup, hb, r] using h
  have htotal : (expandText r.total (some 1) t).names = [['a'], ['b'], ['c']] := by decide +kernel
  have hfails : ∃ name ∈ (expandText r.total (some 1) t).names, ∃ e, lookup name = .error e := by
    rw [htotal]
    exact ⟨['b'], List.mem_cons_of_mem _ List.mem_cons_self, 7, rfl⟩
  obtain ⟨before, name, after, e, hnames, hbefore, hl, hrun, hresult⟩ :=
    (expandText_cut_at_first_failure hagree (some 1) t).2.1 hfails
  -- The only name that fails is the second one.
  have hb : name = ['b'] := by
    by_cases hb : name = ['b']
    · exact hb
    · simp [lookup, hb] at hl
  have he : e = 7 := by simpa [lookup, hb, eq_comm] using hl
  have ha : before = [['a']] := by
    rw [htotal, hb] at hnames
    match before, hnames with
    | [first], hnames => rw [(List.cons.inj hnames).1]
    | first :: second :: before, hnames =>
      obtain ⟨answer, hanswer⟩ := hbefore second (by simp)
      simp [lookup, ← (List.cons.inj (List.cons.inj hnames).2).1] at hanswer
  rw [ha, hb] at hrun
  rw [he] at hresult
  exact ⟨hagree, htotal, hrun, hresult⟩

end Interpolation

import Interpolation.Log
import Interpolation.Number.Numeral
import Interpolation.Template.Basic

/-!
# Interpolation.Expansion

**Expanding** a template: every placeholder asks for its name and is replaced by the answer, by
its pattern, or by nothing.

Design points:

* Asking is a function `Text → Except ε (Option Text)`. No answer (`none`) leaves the placeholder as
  it stands; an empty answer is an answer. An error ends the run.
* A run returns what happened (`Event`) besides its result, in order. The names asked for and the
  log are both read off the events, so there is one account of a run and not two.
* Answers are never read as templates. Only patterns are, and they are part of the template.
* The limit counts patterns inside each other. It is tested when a pattern is taken,
  after its name was asked.
-/

namespace Interpolation

/-! ### Runs -/

/-- Something that happened while a template was expanded. -/
inductive Event
  /-- A name was asked for. -/
  | asked (name : Text)
  /-- A name had no answer, and its placeholder was kept. -/
  | kept (name : Text)
  /-- An unterminated placeholder was dropped. -/
  | dropped (span : Span)
  deriving DecidableEq, Repr

/-- The name asked for, if the event is a question. -/
def Event.name? : Event → Option Text
  | .asked name => some name
  | _ => none

/-- The log record of an event; questions leave none. -/
def Event.record? : Event → Option LogRecord
  | .asked _ => none
  | .kept name =>
    some ⟨.trace, .expansion, "unresolved placeholder '".toList ++ name ++ "' kept".toList⟩
  | .dropped span =>
    some ⟨.debug, .expansion, "unterminated placeholder at ".toList ++ numeral span.start ++
      "..".toList ++ numeral span.stop ++ " dropped".toList⟩

/-- A result together with the events on the way to it. -/
structure Run (ε α : Type) where
  /-- What happened, in order. -/
  events : List Event
  /-- How it ended. -/
  result : Except ε α

namespace Run

variable {ε ε' α β : Type}

/-- A run without events. -/
def pure (a : α) : Run ε α := ⟨[], .ok a⟩

/-- A run that fails at once. -/
def fail (e : ε) : Run ε α := ⟨[], .error e⟩

/-- A run that begins with an event. -/
def after (event : Event) (r : Run ε α) : Run ε α := ⟨event :: r.events, r.result⟩

/-- Run `r`, then what `next` makes of its result; a failure ends the whole run. -/
def bind (r : Run ε α) (next : α → Run ε β) : Run ε β :=
  match r.result with
  | .error e => ⟨r.events, .error e⟩
  | .ok a =>
    let s := next a
    ⟨r.events ++ s.events, s.result⟩

instance : Monad (Run ε) where
  pure := Run.pure
  bind := Run.bind

/-- The same run with its failure put differently. -/
def mapError (f : ε → ε') (r : Run ε α) : Run ε' α := ⟨r.events, r.result.mapError f⟩

/-- The names asked for, in order. -/
def names (r : Run ε α) : List Text := r.events.filterMap Event.name?

/-- The log of the run. -/
def log (r : Run ε α) : List LogRecord := r.events.filterMap Event.record?

@[simp] theorem events_after (event : Event) (r : Run ε α) :
    (r.after event).events = event :: r.events := rfl

/-- Run `r`, then `s`, and put their texts next to each other. -/
def append (r s : Run ε Text) : Run ε Text :=
  match r.result with
  | .error e => ⟨r.events, .error e⟩
  | .ok t => ⟨r.events ++ s.events, s.result.map (t ++ ·)⟩

end Run

/-! ### Expansion -/

/-- Why an expansion stopped before its end. -/
inductive Halt (ε : Type)
  /-- A name could not be resolved because of an error. -/
  | failed (error : ε)
  /-- Patterns were nested deeper than the limit. -/
  | tooDeep (limit : Nat)
  deriving DecidableEq, Repr

/-- A way to look up names that may fail. -/
abbrev Lookup (ε : Type) := Text → Except ε (Option Text)

/-- Ask for the name of a placeholder. Without an answer the placeholder itself is the result,
otherwise what `use` makes of the answer. -/
def Expression.ask {ε : Type} (e : Expression) (lookup : Lookup ε)
    (use : Text → Run (Halt ε) Text) : Run (Halt ε) Text :=
  Run.after (.asked e.name) <|
    match lookup e.name with
    | .error error => Run.fail (.failed error)
    | .ok none => Run.after (.kept e.name) (Run.pure e.written)
    | .ok (some replacement) => use replacement

/-- May another pattern be taken inside `depth` others? Without a limit always. -/
def withinLimit (limit : Option Nat) (depth : Nat) : Except Nat Unit :=
  match limit with
  | none => .ok ()
  | some n => if n ≤ depth then .error n else .ok ()

/-- Expand a template that stands inside `depth` taken patterns. -/
def Template.expandAt {ε : Type} (lookup : Lookup ε) (limit : Option Nat) :
    Template → (depth : Nat) → Run (Halt ε) Text
  | .done, _ => Run.pure []
  | .literal text rest, depth => (Run.pure text).append (rest.expandAt lookup limit depth)
  | .placeholder e _ rest, depth =>
    (e.ask lookup Run.pure).append (rest.expandAt lookup limit depth)
  | .conditional e _ pattern rest, depth =>
    (e.ask lookup fun replacement =>
        if e.takesPattern replacement then
          match withinLimit limit depth with
          | .error n => Run.fail (.tooDeep n)
          | .ok () => pattern.expandAt lookup limit (depth + 1)
        else Run.pure []).append
      (rest.expandAt lookup limit depth)
  | .unterminated span rest, depth => Run.after (.dropped span) (rest.expandAt lookup limit depth)

/-- Expand a template. -/
def Template.expand {ε : Type} (lookup : Lookup ε) (limit : Option Nat) (t : Template) :
    Run (Halt ε) Text :=
  t.expandAt lookup limit 0

/-- Expand the template that a text writes. -/
def expandText {ε : Type} (lookup : Lookup ε) (limit : Option Nat) (t : Text) : Run (Halt ε) Text :=
  (Template.ofText t).expand lookup limit

end Interpolation

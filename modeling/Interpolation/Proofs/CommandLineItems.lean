import Interpolation.CommandLine.Options
import Interpolation.Proofs.Numerals
import Interpolation.Proofs.Trimming

/-!
# Interpolation.Proofs.CommandLineItems

A command line **is a list of items**: values, each of a parameter, and flags.

`items` reads them off, without looking at the values and without seeing mistakes. An option that
has no value attached waits for the next argument that is no option; an argument that nothing waits
for is the file of the template. The reader of the command line is slower: it looks at a value when
the argument after it is known. So the invariant is not about its options but about what they become
with the value that was put off (`Progress.taken`).

Whenever the reader accepts, its options are the items taken in order
(`Options.foldlM_take_of_parse`), and they hold what the items say (`Options.holds_of_parse`).
-/

namespace Interpolation.CommandLine

/-- A part of what a command line says. -/
inductive Item
  /-- A parameter has a value. -/
  | value (parameter : Parameter) (text : Text)
  /-- A flag stands. -/
  | flag (flag : Flag)
  deriving DecidableEq

/-! ### Reading off -/

/-- What naming a parameter adds: an item if a value is attached to it; otherwise the
parameter waits. -/
def namedItems (parameter : Parameter) : Option Text → List Item × Option Parameter
  | none => ([], some parameter)
  | some text => ([.value parameter text], none)

/-- The items of an option with its long name, and the parameter that waits after it. -/
def longItems (t : Text) : List Item × Option Parameter :=
  let parts : Text × Option Text := match t.cut '=' with
    | some (name, value) => (name, some value)
    | none => (t, none)
  match option? parts.1 with
  | some (.inr parameter) => namedItems parameter parts.2
  | some (.inl flag) => ([.flag flag], none)
  | none => ([], none)

/-- The items of options of one letter each, and the parameter that waits after them. -/
def letterItems : Text → List Item × Option Parameter
  | [] => ([], none)
  | c :: t =>
    match letter? c with
    | some (.inr parameter) =>
      namedItems parameter <| match t with
        | [] => none
        | '=' :: value => some value
        | value => some value
    | some (.inl flag) => (.flag flag :: (letterItems t).1, (letterItems t).2)
    | none => ([], none)

/-- The items of arguments, where a parameter may be waiting. -/
def items (waiting : Option Parameter) : (optionsEnded : Bool) → List Text → List Item
  | _, [] => []
  | true, argument :: rest => .value .input argument :: items none true rest
  | false, argument :: rest =>
    match argument with
    | ['-', '-'] => items waiting true rest
    | '-' :: '-' :: t => (longItems t).1 ++ items (longItems t).2 false rest
    | '-' :: c :: t => (letterItems (c :: t)).1 ++ items (letterItems (c :: t)).2 false rest
    | _ => .value (waiting.getD .input) argument :: items none false rest

/-- A value that is attached, one that is waited for, and a file that looks like an option. -/
example :
    items none false ["-da=x".toList, "--set".toList, "k=v".toList, "--".toList, "-s".toList] =
      [.flag .debug, .value .argument ['x'], .value .assignment "k=v".toList,
        .value .input "-s".toList] := by
  decide

theorem items_long {waiting : Option Parameter} {t : Text} (hne : t ≠ []) (rest : List Text) :
    items waiting false (('-' :: '-' :: t) :: rest) =
      (longItems t).1 ++ items (longItems t).2 false rest := by
  rw [items]
  exact hne

theorem items_letters {waiting : Option Parameter} {c : Char} {t : Text} (hne : c ≠ '-')
    (rest : List Text) :
    items waiting false (('-' :: c :: t) :: rest) =
      (letterItems (c :: t)).1 ++ items (letterItems (c :: t)).2 false rest := by
  rw [items]
  · exact fun hc _ => hne hc
  · exact hne

theorem items_value {waiting : Option Parameter} {argument : Text}
    (hne : ∀ c t, argument ≠ '-' :: c :: t) (rest : List Text) :
    items waiting false (argument :: rest) =
      .value (waiting.getD .input) argument :: items none false rest := by
  rw [items]
  · exact hne '-' []
  · exact fun t => hne '-' t
  · exact hne

/-- The values of a parameter, in order. -/
def values (parameter : Parameter) (items : List Item) : List Text :=
  items.filterMap fun
    | .value parameter' text => if parameter' = parameter then some text else none
    | .flag _ => none

/-- The options with one more item. -/
def Options.take (o : Options) : Item → Except Refusal Options
  | .value parameter text => (o.give parameter text).mapError .usage
  | .flag flag => o.raise flag

/-! ### The reader takes the items -/

theorem bind_eq_ok {ε α β : Type} {x : Except ε α} {f : α → Except ε β} {b : β} :
    (x >>= f) = .ok b ↔ ∃ a, x = .ok a ∧ f a = .ok b := by
  cases x with
  | error e => simp [bind, Except.bind]
  | ok a => simp [bind, Except.bind]

namespace Progress

/-- The parameter that waits for a value. -/
def waiting (p : Progress) : Option Parameter :=
  match p.pending with
  | some (parameter, none) => some parameter
  | _ => none

/-- The options with the value that was put off. -/
def taken (p : Progress) : Except Refusal Options :=
  match p.pending with
  | some (parameter, some text) => p.options.take (.value parameter text)
  | _ => .ok p.options

/-- Reading leads from `p` to `q` over some items, and then a parameter may be waiting. -/
structure Advances (p : Progress) (its : List Item) (wait : Option Parameter) (q : Progress) :
    Prop where
  /-- The items are taken after the value that was put off. -/
  taken : q.taken = p.taken >>= fun o => its.foldlM Options.take o
  /-- The parameter that waits. -/
  waiting : q.waiting = wait

theorem settle_eq_ok {p : Progress} {o : Options} (h : p.settle = .ok o) :
    p.waiting = none ∧ p.taken = .ok o := by
  unfold settle at h
  unfold waiting taken
  split at h
  · rename_i hpending
    rw [hpending]
    exact ⟨rfl, h⟩
  · cases h
  · rename_i hpending
    rw [hpending]
    exact ⟨rfl, h⟩

theorem Advances.of_settle {p q : Progress} {o : Options} {its : List Item}
    {wait : Option Parameter} (hsettle : p.settle = .ok o)
    (htaken : its.foldlM Options.take o = q.taken) (hwait : q.waiting = wait) :
    Advances p its wait q :=
  ⟨by rw [(settle_eq_ok hsettle).2, ← htaken]; rfl, hwait⟩

theorem Advances.trans {p q r : Progress} {its its' : List Item} {wait wait' : Option Parameter}
    (h : Advances p its wait q) (h' : Advances q its' wait' r) :
    Advances p (its ++ its') wait' r := by
  refine ⟨?_, h'.waiting⟩
  rw [h'.taken, h.taken, bind_assoc]
  simp only [List.foldlM_append]

theorem advances_of_name {p q : Progress} {parameter : Parameter} {text : Option Text}
    (h : p.name parameter text = .ok q) :
    Advances p (namedItems parameter text).1 (namedItems parameter text).2 q := by
  obtain ⟨o, hsettle, h⟩ := bind_eq_ok.1 h
  cases text with
  | none =>
    cases h
    exact .of_settle hsettle rfl rfl
  | some text =>
    obtain ⟨o', hgive, h⟩ := bind_eq_ok.1 h
    cases h
    refine .of_settle hsettle ?_ rfl
    rw [namedItems, List.foldlM_cons, Options.take, hgive]
    rfl

theorem advances_of_raise {p q : Progress} {flag : Flag} (h : p.raise flag = .ok q) :
    Advances p [.flag flag] none q := by
  obtain ⟨o, hsettle, h⟩ := bind_eq_ok.1 h
  obtain ⟨o', hraise, h⟩ := bind_eq_ok.1 h
  cases h
  refine .of_settle hsettle ?_ rfl
  rw [List.foldlM_cons, Options.take, hraise]
  rfl

theorem advances_of_position {p q : Progress} {argument : Text} (h : p.position argument = .ok q) :
    Advances p [.value .input argument] none q := by
  unfold position at h
  split at h
  · cases h
  · obtain ⟨o, hsettle, h⟩ := bind_eq_ok.1 h
    cases h
    refine .of_settle hsettle ?_ rfl
    rw [List.foldlM_cons]
    exact bind_pure _

theorem advances_of_long {p q : Progress} {t : Text} (h : p.long t = .ok q) :
    Advances p (longItems t).1 (longItems t).2 q := by
  unfold long at h
  unfold longItems
  cases hcut : t.cut '=' with
  | none =>
    simp only [hcut] at h ⊢
    cases hoption : option? t with
    | none => simp [hoption] at h
    | some option =>
      simp only [hoption] at h ⊢
      cases option with
      | inl flag => exact advances_of_raise h
      | inr parameter => exact advances_of_name h
  | some parts =>
    obtain ⟨name, text⟩ := parts
    simp only [hcut] at h ⊢
    cases hoption : option? name with
    | none => simp [hoption] at h
    | some option =>
      simp only [hoption] at h ⊢
      cases option with
      | inl flag => cases h
      | inr parameter => exact advances_of_name h

theorem advances_of_letters {p q : Progress} {t : Text} (hwait : t = [] → p.waiting = none)
    (h : p.letters t = .ok q) : Advances p (letterItems t).1 (letterItems t).2 q := by
  induction t generalizing p with
  | nil =>
    cases h
    exact ⟨(bind_pure _).symm, hwait rfl⟩
  | cons c t ih =>
    rw [letters.eq_def] at h
    rw [letterItems.eq_def]
    simp only at h ⊢
    split at h
    · cases h
    · rename_i flag hletter
      rw [hletter]
      obtain ⟨p', hraise, h⟩ := bind_eq_ok.1 h
      exact (advances_of_raise hraise).trans (ih (fun _ => (advances_of_raise hraise).waiting) h)
    · rename_i parameter hletter
      rw [hletter]
      exact advances_of_name h

theorem waiting_of_pending {p : Progress} {parameter : Parameter}
    (h : p.pending = some (parameter, none)) : p.waiting = some parameter := by
  rw [waiting, h]

theorem waiting_eq_none {p : Progress} (h : ∀ parameter, p.pending ≠ some (parameter, none)) :
    p.waiting = none := by
  unfold waiting
  split
  · rename_i hpending
    exact absurd hpending (h _)
  · rfl

theorem advances_of_pending {p : Progress} {parameter : Parameter}
    (h : p.pending = some (parameter, none)) (argument : Text) :
    Advances p [.value parameter argument] none
      { p with pending := some (parameter, some argument) } := by
  refine ⟨?_, rfl⟩
  simp only [taken, h, List.foldlM_cons]
  exact (bind_pure _).symm

/-- **The reader takes the items**, behind the value that it put off. -/
theorem taken_of_read {p : Progress} {ended : Bool} {arguments : List Text} {o : Options}
    (h : p.read ended arguments = .ok o) :
    (p.taken >>= fun o' => (items p.waiting ended arguments).foldlM Options.take o') = .ok o := by
  induction arguments generalizing p ended with
  | nil =>
    rw [read.eq_def] at h
    rw [(settle_eq_ok h).2]
    rfl
  | cons argument rest ih =>
    -- After a step, the rest is read from where the step leads.
    have hrest {q : Progress} {its : List Item} {wait : Option Parameter} {ended : Bool}
        (hstep : Advances p its wait q) (h : q.read ended rest = .ok o) :
        (p.taken >>= fun o' => (its ++ items wait ended rest).foldlM Options.take o') = .ok o := by
      have := ih h
      rw [hstep.waiting, hstep.taken, bind_assoc] at this
      simpa only [List.foldlM_append] using this
    cases ended with
    | true =>
      obtain ⟨q, hposition, h⟩ := bind_eq_ok.1 h
      exact hrest (advances_of_position hposition) h
    | false =>
      rw [read.eq_def] at h
      simp only at h
      split at h
      · exact ih h
      · rename_i t hne
        rw [items_long hne]
        obtain ⟨q, hlong, h⟩ := bind_eq_ok.1 h
        exact hrest (advances_of_long hlong) h
      · rename_i c t hne' hne
        rw [items_letters hne]
        obtain ⟨q, hletters, h⟩ := bind_eq_ok.1 h
        exact hrest (advances_of_letters (fun h => nomatch h) hletters) h
      · rename_i hne
        rw [items_value hne]
        split at h
        · rename_i parameter hpending
          rw [waiting_of_pending hpending]
          exact hrest (advances_of_pending hpending argument) h
        · rename_i hwait
          rw [waiting_eq_none hwait]
          obtain ⟨q, hposition, h⟩ := bind_eq_ok.1 h
          exact hrest (advances_of_position hposition) h

end Progress

/-- The options of a command line are its items, taken in order. -/
theorem Options.foldlM_take_of_parse {arguments : List Text} {o : Options}
    (h : Options.parse arguments = .ok o) :
    (items .none false arguments).foldlM Options.take Options.none = .ok o :=
  Progress.taken_of_read h

/-! ### What the options hold -/

/-- The options hold what the items say. -/
structure Options.Holds (o : Options) (its : List Item) : Prop where
  /-- The file of the template was named. -/
  input : o.input = (values .input its).getLast?
  /-- At most one configuration file was named. -/
  config : values .config its = o.config.toList
  /-- The assignments stand in order. -/
  assignments : (values .assignment its).mapM parseAssignment = .ok o.assignments
  /-- The arguments of the template stand in order. -/
  arguments : values .argument its = o.arguments
  /-- At most one limit was given, as a numeral of 64 bits. -/
  maxDepth :
    (values .maxDepth its).mapM (IntRange.unsigned 64).read = .ok (o.maxDepth.toList.map Int.ofNat)
  /-- The flag to check stands. -/
  check : o.check = decide (.flag .check ∈ its)
  /-- The flag to show the log stands. -/
  debug : o.debug = decide (.flag .debug ∈ its)

theorem values_append (parameter : Parameter) (its its' : List Item) :
    values parameter (its ++ its') = values parameter its ++ values parameter its' :=
  List.filterMap_append

@[simp] theorem values_flag (parameter : Parameter) (flag : Flag) :
    values parameter [.flag flag] = [] := rfl

@[simp] theorem values_value (parameter parameter' : Parameter) (text : Text) :
    values parameter [.value parameter' text] = if parameter' = parameter then [text] else [] := by
  by_cases h : parameter' = parameter <;> simp [values, h]

theorem mapM_concat {ε α β : Type} {f : α → Except ε β} {l : List α} {bs : List β} {a : α} {b : β}
    (hl : l.mapM f = .ok bs) (ha : f a = .ok b) : (l ++ [a]).mapM f = .ok (bs ++ [b]) := by
  rw [List.mapM_append, hl, List.mapM_cons, ha]
  rfl

theorem read_unsigned_nonneg {bits : Nat} {t : Text} {n : Int}
    (h : (IntRange.unsigned bits).read t = .ok n) : 0 ≤ n := by
  obtain ⟨-, hholds, -⟩ := IntRange.read_eq_ok_iff.1 h
  exact (IntRange.holds_unsigned_iff.1 hholds).1

theorem Options.Holds.take_flag {o o' : Options} {its : List Item} {flag : Flag} (h : o.Holds its)
    (hraise : o.raise flag = .ok o') : o'.Holds (its ++ [.flag flag]) := by
  obtain ⟨hinput, hconfig, hassignments, harguments, hmaxDepth, hcheck, hdebug⟩ := h
  cases flag with
  | check =>
    rw [raise] at hraise
    split at hraise <;> cases hraise
    constructor <;> simp [values_append, *]
  | debug =>
    rw [raise] at hraise
    split at hraise <;> cases hraise
    constructor <;> simp [values_append, *]
  | help => cases hraise

theorem Options.Holds.take_value {o o' : Options} {its : List Item}
    {parameter : Parameter} {text : Text} (h : o.Holds its)
    (hgive : o.give parameter text = .ok o') : o'.Holds (its ++ [.value parameter text]) := by
  obtain ⟨hinput, hconfig, hassignments, harguments, hmaxDepth, hcheck, hdebug⟩ := h
  cases parameter with
  | input =>
    simp only [give] at hgive
    split at hgive <;> cases hgive
    constructor <;> simp [values_append, *]
  | config =>
    simp only [give] at hgive
    split at hgive
    · cases hgive
    · rename_i hsome
      split at hgive <;> cases hgive
      have hnone : o.config = Option.none := by simpa using hsome
      rw [hnone] at hconfig
      constructor <;> simp [values_append, *]
  | assignment =>
    simp only [give] at hgive
    split at hgive
    · cases hgive
    · rename_i a ha
      cases hgive
      have := mapM_concat hassignments ha
      constructor <;> simp [values_append, *]
  | argument =>
    cases hgive
    constructor <;> simp [values_append, *]
  | maxDepth =>
    simp only [give] at hgive
    split at hgive
    · cases hgive
    · rename_i hsome
      split at hgive
      · cases hgive
      · rename_i n hn
        cases hgive
        have hnone : o.maxDepth = Option.none := by simpa using hsome
        rw [hnone] at hmaxDepth
        obtain ⟨m, rfl⟩ := Int.eq_ofNat_of_zero_le (read_unsigned_nonneg hn)
        have := mapM_concat hmaxDepth hn
        constructor <;> simp [values_append, *]

theorem Options.Holds.take {o o' : Options} {its : List Item} {item : Item} (h : o.Holds its)
    (htake : o.take item = .ok o') : o'.Holds (its ++ [item]) := by
  cases item with
  | flag flag => exact h.take_flag htake
  | value parameter text =>
    refine h.take_value ?_
    rw [Options.take] at htake
    cases hgive : o.give parameter text with
    | error e => rw [hgive] at htake; cases htake
    | ok o'' => rw [hgive] at htake; cases htake; rfl

theorem Options.holds_of_foldlM {o o' : Options} {its its' : List Item} (h : o.Holds its)
    (htake : its'.foldlM Options.take o = .ok o') : o'.Holds (its ++ its') := by
  induction its' generalizing o its with
  | nil =>
    cases htake
    rwa [List.append_nil]
  | cons item its' ih =>
    obtain ⟨o₁, hfirst, hothers⟩ := bind_eq_ok.1 htake
    rw [List.append_cons]
    exact ih (h.take hfirst) hothers

/-- **Accepted options hold what the command line says.** -/
theorem Options.holds_of_parse {arguments : List Text} {o : Options}
    (h : Options.parse arguments = .ok o) : o.Holds (items .none false arguments) := by
  have hnone : Options.none.Holds [] := ⟨rfl, rfl, rfl, rfl, rfl, rfl, rfl⟩
  exact holds_of_foldlM hnone (foldlM_take_of_parse h)

/-- **An assignment is cut at its first `=`.** The key in front loses its blanks, and not all of it
may be blank; the value keeps everything. -/
theorem parseAssignment_eq_ok_iff {t key value : Text} :
    parseAssignment t = .ok (key, value) ↔
      ∃ written, t = written ++ '=' :: value ∧ '=' ∉ written ∧ key = written.trim ∧
        ∃ c ∈ written, ¬ isBlank c := by
  unfold parseAssignment
  constructor
  · intro h
    split at h
    · cases h
    · rename_i written rest hcut
      obtain ⟨ht, hmark⟩ := Text.eq_of_cut_eq_some hcut
      split at h
      · cases h
      · rename_i hblank
        cases h
        rw [Text.trim_eq_nil_iff] at hblank
        exact ⟨written, ht, hmark, rfl, by simpa using hblank⟩
  · rintro ⟨written, rfl, hmark, rfl, c, hc, hblank⟩
    rw [Text.cut_append hmark]
    exact if_neg fun h => hblank (Text.trim_eq_nil_iff.1 h c hc)

end Interpolation.CommandLine

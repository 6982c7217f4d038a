import Interpolation.Proofs.ConfigurationMaps
import Interpolation.Proofs.Numerals

/-!
# Interpolation.Proofs.IntegerNames

**Integer names belong to the arguments.** A name that writes an integer should never be answered by
a configuration, and should be answered by the arguments just if it is the index of one of them
(`Reserved`). The resolvers recognize an integer of 32 bits only. Within these the promise is kept
for every configuration and every list of arguments; a longer numeral is a name like any other,
which a configuration may answer and no argument does (`integer_names_reserved_iff`).
-/

namespace Interpolation

variable {c : Option Configuration} {args : List Value} {name : Text}

theorem index?_eq_some_iff {z : Int} :
    index? name = some z ↔ Denotes name z ∧ -2147483648 ≤ z ∧ z ≤ 2147483647 := by
  rw [index?, IntRange.read?_signed_iff]
  exact and_congr_right fun _ => by omega

theorem index?_eq_none_of_not_bits {z : Int} (h : Denotes name z)
    (hz : ¬ (-2147483648 ≤ z ∧ z ≤ 2147483647)) : index? name = none := by
  cases hindex : index? name with
  | none => rfl
  | some z' =>
    obtain ⟨h', hz'⟩ := index?_eq_some_iff.1 hindex
    exact absurd (h'.unique h ▸ hz') hz

/-! ### The resolvers on integers and on other names -/

namespace Resolver

theorem arguments_of_index {n : Nat} (h : index? name = some (n : Int)) :
    Resolver.arguments args name = args[n]?.map (Value.toText .commaSpace) := by
  rw [Resolver.arguments, h]

theorem arguments_of_negative {z : Int} (h : index? name = some z) (hz : z < 0) :
    Resolver.arguments args name = none := by
  rw [Resolver.arguments, h]
  cases z with
  | ofNat n => exact absurd (Int.natCast_nonneg n) (Int.not_le.2 hz)
  | negSucc n => rfl

theorem arguments_of_not_index (h : index? name = none) : Resolver.arguments args name = none := by
  rw [Resolver.arguments, h]

theorem configuration_of_index {z : Int} (h : index? name = some z) :
    Resolver.configuration c name = none := by
  cases c with
  | none => rfl
  | some stored => rw [Configuration.resolver_eq, h, Option.isSome_some, if_pos rfl]

theorem configuration_of_not_index (h : index? name = none) :
    Resolver.configuration c name = none ↔
      ∀ stored, c = some stored → stored.contains name = false := by
  cases c with
  | none => simp [Resolver.configuration]
  | some stored =>
    rw [Configuration.resolver_eq, h, Option.isSome_none, if_neg Bool.false_ne_true]
    simp [Configuration.contains]

/-- A name is known to the arguments or to the configuration, never to both. -/
theorem arguments_or_configuration_eq_none (args : List Value) (c : Option Configuration)
    (name : Text) : Resolver.arguments args name = none ∨ Resolver.configuration c name = none := by
  cases hindex : index? name with
  | none => exact .inl (arguments_of_not_index hindex)
  | some z => exact .inr (configuration_of_index hindex)

end Resolver

/-! ### The promise -/

/-- What is promised of a name that writes the integer `z`. -/
structure Reserved (c : Option Configuration) (args : List Value) (name : Text) (z : Int) :
    Prop where
  /-- The configuration does not answer it. -/
  unconfigured : Resolver.configuration c name = none
  /-- The arguments answer it just if it is the index of one of them. -/
  answered_iff : (Resolver.arguments args name).isSome ↔ 0 ≤ z ∧ z < args.length
  /-- The answer is the text of that argument. -/
  answer : ∀ n (h : n < args.length), z = n →
    Resolver.arguments args name = some (args[n].toText .commaSpace)

theorem reserved_of_index {z : Int} (h : index? name = some z) : Reserved c args name z where
  unconfigured := Resolver.configuration_of_index h
  answered_iff := by
    by_cases hz : z < 0
    · rw [Resolver.arguments_of_negative h hz]
      simp
      omega
    · obtain ⟨n, rfl⟩ := Int.eq_ofNat_of_zero_le (Int.not_lt.1 hz)
      rw [Resolver.arguments_of_index h]
      simp
  answer := by
    rintro n hn rfl
    rw [Resolver.arguments_of_index h, List.getElem?_eq_getElem hn, Option.map_some]

theorem reserved_iff_of_not_index {z : Int} (h : index? name = none) :
    Reserved c args name z ↔
      (∀ stored, c = some stored → stored.contains name = false) ∧ ¬ (0 ≤ z ∧ z < args.length) := by
  have harguments : Resolver.arguments args name = none := Resolver.arguments_of_not_index h
  rw [← Resolver.configuration_of_not_index h]
  constructor
  · intro hreserved
    refine ⟨hreserved.unconfigured, fun hz => ?_⟩
    have hanswered := hreserved.answered_iff.2 hz
    rw [harguments] at hanswered
    cases hanswered
  · rintro ⟨hconfiguration, hz⟩
    refine ⟨hconfiguration, by simp [harguments, hz], ?_⟩
    rintro n hn rfl
    exact absurd ⟨Int.natCast_nonneg n, Int.ofNat_lt.2 hn⟩ hz

theorem reserved_iff {z : Int} (h : Denotes name z) :
    Reserved c args name z ↔ (-2147483648 ≤ z ∧ z ≤ 2147483647) ∨
      ((∀ stored, c = some stored → stored.contains name = false) ∧
        ¬ (0 ≤ z ∧ z < args.length)) := by
  by_cases hbits : -2147483648 ≤ z ∧ z ≤ 2147483647
  · exact iff_of_true (reserved_of_index (index?_eq_some_iff.2 ⟨h, hbits⟩)) (.inl hbits)
  · rw [reserved_iff_of_not_index (index?_eq_none_of_not_bits h hbits), or_iff_right hbits]

/-- **Which integer names are reserved.** Those of 32 bits are, whatever the configuration holds and
however many arguments there are. A longer one is reserved only as long as the configuration has no
key that is spelled like it, and no argument has it as its index. A name that is no integer is never
answered by arguments. -/
theorem integer_names_reserved_iff (name : Text) :
    (∀ z, Denotes name z →
      ((∀ c args, Reserved c args name z) ↔ -2147483648 ≤ z ∧ z ≤ 2147483647) ∧
        ∀ c args, Reserved c args name z ↔ (-2147483648 ≤ z ∧ z ≤ 2147483647) ∨
          ((∀ stored, c = some stored → stored.contains name = false) ∧
            ¬ (0 ≤ z ∧ z < args.length))) ∧
      ((∀ z, ¬ Denotes name z) → ∀ args, Resolver.arguments args name = none) := by
  constructor
  · intro z h
    refine ⟨⟨fun hall => ?_, fun hbits c args => (reserved_iff h).2 (.inl hbits)⟩,
      fun c args => reserved_iff h⟩
    -- A configuration can hold any key.
    have hkey := hall (some (Configuration.empty.insert name none)) []
    refine ((reserved_iff h).1 hkey).resolve_right fun hfree => ?_
    have hcontains := hfree.1 _ rfl
    rw [Configuration.contains, Configuration.get?_insert, if_pos rfl] at hcontains
    cases hcontains
  · intro hno args
    refine Resolver.arguments_of_not_index ?_
    cases hindex : index? name with
    | none => rfl
    | some z => exact absurd (index?_eq_some_iff.1 hindex).1 (hno z)

/-- A sign, leading zeros and a key of the same spelling change nothing. -/
theorem integer_names_reserved_with_sign_and_zeros :
    let name : Text := ['+', '0', '1']
    let stored : Configuration := Configuration.empty.insert name (some ['k'])
    Denotes name 1 ∧ Resolver.configuration (some stored) name = none ∧
      Resolver.arguments [.text ['a'], .text ['b']] name = some ['b'] := by
  intro name stored
  have hname : Denotes name 1 := .plus (by decide)
  have hreserved := ((integer_names_reserved_iff name).1 1 hname).1.2 (by omega) (some stored)
  exact ⟨hname, (hreserved []).unconfigured, (hreserved _).answer 1 (by decide) rfl⟩

/-- The first integer that takes more than 32 bits is looked up among the keys. -/
theorem not_reserved_beyond_32_bits :
    let name : Text := ['2', '1', '4', '7', '4', '8', '3', '6', '4', '8']
    let stored : Configuration := Configuration.empty.insert name (some ['v'])
    Denotes name 2147483648 ∧ Resolver.configuration (some stored) name = some ['v'] ∧
      ∀ args, ¬ Reserved (some stored) args name 2147483648 := by
  intro name stored
  have hanswer : Resolver.configuration (some stored) name = some ['v'] := by decide +kernel
  refine ⟨.unsigned (by decide), hanswer, fun args hreserved => ?_⟩
  rw [hreserved.unconfigured] at hanswer
  cases hanswer

end Interpolation

import Interpolation.Proofs.ConfigurationMaps
import Interpolation.Proofs.Numerals

/-!
# Interpolation.Proofs.StoredIntegers

**Integers are stored in decimal and read back by every range that holds them.**

The numeral of an integer is its usual one (`signedNumeral_eq_toString`), and it denotes that
integer (`denotes_signedNumeral`). Whether a value keeps an integer in 64 bits or as a text makes no
difference to what is stored (`Value.stored_ofInt`).

Reading asks which integer a text writes, and only then whether the range holds it. Signed ranges
agree on the first question, so a narrow one reads what a wide one reads, as far as it holds it
(`IntRange.read?_signed_iff`). For a range without negative numbers a minus sign is no sign, but
only `-0` and its like write a number that it would hold, and no integer has such a numeral
(`IntRange.read?_signedNumeral`).
-/

namespace Interpolation

/-! ### Numerals -/

theorem digitChar_eq {d : Nat} (h : d < 10) : digitChar d = d.digitChar := by
  have hall : ∀ d < 10, digitChar d = d.digitChar := by decide
  exact hall d h

theorem numeral_eq_toDigits (n : Nat) : numeral n = Nat.toDigits 10 n := by
  induction n using numeral.induct with
  | case1 n hn => rw [numeral, if_pos hn, Nat.toDigits_of_lt_base hn, digitChar_eq hn]
  | case2 n hn ih =>
    have hdigits : Nat.toDigits 10 n = Nat.toDigits 10 (n / 10) ++ [(n % 10).digitChar] := by
      rw [Nat.toDigits_eq_if (by decide), if_neg hn]
    rw [numeral, if_neg hn, ih, digitChar_eq (Nat.mod_lt n (by decide)), hdigits]

/-- **The numeral of an integer is its usual one.** -/
theorem signedNumeral_eq_toString (n : Int) : signedNumeral n = (toString n).toList := by
  cases n with
  | ofNat n =>
    have htext : toString (Int.ofNat n) = n.repr := rfl
    rw [htext, Nat.toList_repr, signedNumeral, numeral_eq_toDigits]
  | negSucc n =>
    have htext : toString (Int.negSucc n) = "-" ++ (n + 1).repr := rfl
    rw [htext, String.toList_append, Nat.toList_repr, signedNumeral, numeral_eq_toDigits]
    rfl

theorem isDigits_numeral (n : Nat) : IsDigits (numeral n) :=
  ⟨numeral_ne_nil n, fun _ => isDigit_of_mem_numeral⟩

theorem denotes_signedNumeral (n : Int) : Denotes (signedNumeral n) n := by
  cases n with
  | ofNat n =>
    have h := Denotes.unsigned (isDigits_numeral n)
    rwa [digitsValue_numeral] at h
  | negSucc n =>
    have h := Denotes.minus (isDigits_numeral (n + 1))
    rwa [digitsValue_numeral] at h

/-- Only negative integers have a minus sign. -/
theorem neg_of_head?_signedNumeral {n : Int} (h : (signedNumeral n).head? = some '-') : n < 0 := by
  cases n with
  | ofNat n =>
    have hmem : '-' ∈ numeral n := List.mem_of_mem_head? h
    exact absurd (isDigit_of_mem_numeral hmem) (by decide)
  | negSucc n => exact Int.negSucc_lt_zero n

/-! ### Ranges -/

namespace IntRange

/-- **A range reads the numeral of an integer just if it holds the integer.** -/
theorem read?_signedNumeral (r : IntRange) (n : Int) :
    r.read? (signedNumeral n) = if r.holds n then some n else none := by
  by_cases hholds : r.holds n
  · rw [if_pos hholds]
    refine read?_eq_some_iff.2 ⟨denotes_signedNumeral n, hholds, fun hminus => ?_⟩
    have hneg := neg_of_head?_signedNumeral hminus
    have hbelow := (holds_iff.1 hholds).1
    omega
  · rw [if_neg hholds, Option.eq_none_iff_forall_ne_some]
    intro m hm
    obtain ⟨hdenotes, hm, -⟩ := read?_eq_some_iff.1 hm
    exact hholds (hdenotes.unique (denotes_signedNumeral n) ▸ hm)

end IntRange

/-! ### Stored integers -/

theorem Value.stored_ofInt (folder : Option FilePath) (n : Int) :
    (Value.ofInt n).stored folder = some (signedNumeral n) := by
  rw [ofInt]
  split
  · rename_i hholds
    have hstored : (Value.int (Int64.ofInt n)).stored folder =
        some (signedNumeral (Int64.ofInt n).toInt) := by rfl
    rw [hstored, IntRange.toInt_ofInt_of_holds hholds]
  · rfl

/-- **Integers are read back by every range that holds them.** An integer is stored in decimal,
however large it is. The signed integers of some bits read it back just if it is one of them, and so
do the unsigned ones. Whatever the text is that is read, what fewer than 64 bits read is what 64
bits read, as far as the fewer bits hold it. -/
theorem stored_integers_are_read_back (c : Configuration) (folder : Option FilePath) (key : Text)
    (n : Int) :
    ((c.setValue folder key (.ofInt n)).setting key).text? = some (toString n).toList ∧
    (∀ bits, ((c.setValue folder key (.ofInt n)).setting key).toInt? (.signed bits) =
      if -2 ^ (bits - 1) ≤ n ∧ n < 2 ^ (bits - 1) then some n else none) ∧
    (∀ bits, ((c.setValue folder key (.ofInt n)).setting key).toInt? (.unsigned bits) =
      if 0 ≤ n ∧ n < 2 ^ bits then some n else none) ∧
    ∀ (s : Setting) (bits : Nat), bits ≤ 64 → ∀ m, s.toInt? (.signed bits) = some m ↔
      s.toInt? (.signed 64) = some m ∧ -2 ^ (bits - 1) ≤ m ∧ m < 2 ^ (bits - 1) := by
  have hsetting : (c.setValue folder key (.ofInt n)).setting key = ⟨some (signedNumeral n)⟩ := by
    rw [Configuration.setting_setValue, Value.stored_ofInt]
  rw [hsetting]
  refine ⟨congrArg some (signedNumeral_eq_toString n), fun bits => ?_, fun bits => ?_,
    fun s bits hbits m => ?_⟩
  · rw [Setting.toInt?, Option.bind_some, IntRange.read?_signedNumeral]
    exact if_congr IntRange.holds_signed_iff rfl rfl
  · rw [Setting.toInt?, Option.bind_some, IntRange.read?_signedNumeral]
    exact if_congr IntRange.holds_unsigned_iff rfl rfl
  · rw [Setting.toInt?, Setting.toInt?]
    cases s.text? with
    | none => simp
    | some t =>
      have hpow : (2 : Int) ^ (bits - 1) ≤ 2 ^ (64 - 1) := by
        exact_mod_cast Nat.pow_le_pow_right (by decide) (Nat.sub_le_sub_right hbits 1)
      rw [Option.bind_some, Option.bind_some, IntRange.read?_signed_iff, IntRange.read?_signed_iff]
      constructor
      · intro h
        obtain ⟨hdenotes, hle, hlt⟩ := h
        exact ⟨⟨hdenotes, by omega, by omega⟩, hle, hlt⟩
      · intro h
        exact ⟨h.1.1, h.2⟩

/-- The largest number of 64 bits is stored although no signed range of that size holds it; eight
bits read their lowest number, zeros or not. -/
theorem stored_integers_are_read_back_at_the_ends :
    let stored :=
      (Configuration.empty.setValue none ['n'] (.ofInt 18446744073709551615)).setting ['n']
    let written : Setting := ⟨some ['-', '0', '1', '2', '8']⟩
    stored.text? = some "18446744073709551615".toList ∧ stored.toInt? (.signed 64) = none ∧
      stored.toInt? (.unsigned 64) = some 18446744073709551615 ∧
      8 ≤ 64 ∧ written.toInt? (.signed 64) = some (-128) ∧
        written.toInt? (.signed 8) = some (-128) := by
  intro stored written
  obtain ⟨htext, hsigned, hunsigned, hnarrow⟩ :=
    stored_integers_are_read_back .empty none ['n'] 18446744073709551615
  have hwritten : written.toInt? (.signed 64) = some (-128) := by decide +kernel
  exact ⟨htext, (hsigned 64).trans (if_neg (by decide)),
    (hunsigned 64).trans (if_pos (by decide)), by decide, hwritten,
    (hnarrow written 8 (by decide) (-128)).2 ⟨hwritten, by decide⟩⟩

end Interpolation

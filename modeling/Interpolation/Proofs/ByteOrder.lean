import Interpolation.Text.Utf8

/-!
# Interpolation.Proofs.ByteOrder

**The order of texts is the order of their bytes.** UTF-8 keeps the order of code points, so keys
that stand in the order of their characters stand in byte order too (`toBytes_lt_toBytes`).

A character is written as a leading byte and the digits of its scalar value to base 64. A greater
leading byte means a greater value. Behind equal leading bytes there are equally many digits, and
their first difference decides.
-/

namespace Interpolation.Text

/-- The last `k` digits of a number to base 64, as the bytes that continue a character. -/
def continuation : (k v : Nat) → List UInt8
  | 0, _ => []
  | k + 1, v => continuation k (v / 64) ++ [UInt8.ofNat (v % 64 + 128)]

/-- The leading byte of the scalar value `v` is `lead`, and `k` bytes continue it. -/
def Leads (v lead k : Nat) : Prop :=
  (k = 0 ∧ v < 0x80 ∧ lead = v) ∨
    (k = 1 ∧ 0x80 ≤ v ∧ v < 0x800 ∧ lead = v / 64 + 0xC0) ∨
    (k = 2 ∧ 0x800 ≤ v ∧ v < 0x10000 ∧ lead = v / 4096 + 0xE0) ∨
    (k = 3 ∧ 0x10000 ≤ v ∧ v < 0x110000 ∧ lead = v / 262144 + 0xF0)

theorem exists_leads (c : Char) :
    ∃ lead k, Leads c.val.toNat lead k ∧
      String.utf8EncodeChar c = UInt8.ofNat lead :: continuation k c.val.toNat := by
  have hc : c.val.toNat < 0x110000 := by
    rcases c.valid with hc | hc
    · exact Nat.lt_trans hc (by decide)
    · exact hc.2
  unfold String.utf8EncodeChar Leads
  simp only
  generalize c.val.toNat = v at hc ⊢
  split
  · exact ⟨v, 0, by omega, rfl⟩
  · split
    · refine ⟨v / 64 + 0xC0, 1, by omega, ?_⟩
      rw [Nat.mod_eq_of_lt (by omega : v / 64 < 32)]
      rfl
    · split
      · refine ⟨v / 4096 + 0xE0, 2, by omega, ?_⟩
        rw [Nat.mod_eq_of_lt (by omega : v / 4096 < 16)]
        rfl
      · refine ⟨v / 262144 + 0xF0, 3, by omega, ?_⟩
        rw [Nat.mod_eq_of_lt (by omega : v / 262144 < 8), (by omega : v / 4096 = v / 64 / 64)]
        rfl

/-! ### Comparing bytes -/

/-- The first byte decides if it differs. -/
theorem ofNat_cons_lt_ofNat_cons {a b : Nat} (h : a < b) (hb : b < 256) (x y : List UInt8) :
    UInt8.ofNat a :: x < UInt8.ofNat b :: y := by
  rw [List.cons_lt_cons_iff, UInt8.lt_iff_toNat_lt, UInt8.toNat_ofNat', UInt8.toNat_ofNat']
  omega

/-- Of two numbers that agree in front of their last `k` digits the smaller one has the smaller
digits, whatever follows them. -/
theorem continuation_append_lt {k m n : Nat} (h : m < n) (heq : m / Nat.pow 64 k = n / Nat.pow 64 k)
    (x y : List UInt8) :
    continuation k m ++ x < continuation k n ++ y := by
  induction k generalizing m n x y with
  | zero => exact absurd heq (by simpa using Nat.ne_of_lt h)
  | succ k ih =>
    rw [continuation, continuation, List.append_assoc, List.append_assoc]
    have hdigits : m / 64 < n / 64 ∨ m / 64 = n / 64 ∧ m % 64 < n % 64 := by omega
    rcases hdigits with hhigh | ⟨hhigh, hlow⟩
    · refine ih hhigh ?_ _ _
      rw [Nat.div_div_eq_div_mul, Nat.div_div_eq_div_mul, Nat.mul_comm 64]
      exact heq
    · rw [hhigh]
      exact List.append_left_lt (ofNat_cons_lt_ofNat_cons (by omega) (by omega) x y)

/-- A smaller character has the smaller bytes, whatever follows them. -/
theorem utf8EncodeChar_append_lt {c d : Char} (h : c < d) (x y : List UInt8) :
    String.utf8EncodeChar c ++ x < String.utf8EncodeChar d ++ y := by
  have hlt : c.val.toNat < d.val.toNat := h
  obtain ⟨lead, k, hc, hcbytes⟩ := exists_leads c
  obtain ⟨lead', k', hd, hdbytes⟩ := exists_leads d
  unfold Leads at hc hd
  rw [hcbytes, hdbytes, List.cons_append, List.cons_append]
  rcases Nat.lt_trichotomy lead lead' with hlead | hlead | hlead
  · exact ofNat_cons_lt_ofNat_cons hlead (by omega) _ _
  · obtain rfl : k = k' := by omega
    have heq : c.val.toNat / 64 ^ k = d.val.toNat / 64 ^ k := by
      rcases (by omega : k = 0 ∨ k = 1 ∨ k = 2 ∨ k = 3) with rfl | rfl | rfl | rfl <;> omega
    rw [hlead]
    exact List.cons_lt_cons_iff.2 (.inr ⟨rfl, continuation_append_lt hlt heq x y⟩)
  · -- A smaller value has no greater leading byte.
    omega

/-! ### Comparing texts -/

theorem toBytes_lt_toBytes {s t : Text} (h : s < t) : s.toBytes < t.toBytes := by
  unfold toBytes
  induction h with
  | @nil d t =>
    obtain ⟨lead, k, -, hbytes⟩ := exists_leads d
    rw [List.flatMap_nil, List.flatMap_cons, hbytes, List.cons_append]
    exact List.nil_lt_cons _ _
  | rel h =>
    rw [List.flatMap_cons, List.flatMap_cons]
    exact utf8EncodeChar_append_lt h _ _
  | cons _ ih =>
    rw [List.flatMap_cons, List.flatMap_cons]
    exact List.append_left_lt ih

end Interpolation.Text

import Interpolation.Text.Basic

/-!
# Interpolation.Text.Utf8

**UTF-8** in both directions. Reading never fails half way: the bytes are cut into units, each of
them a scalar value or an ill-formed piece, and the two readers differ only in what they make of the
pieces. `ofBytes?` accepts no piece; `ofBytesLossy` shows each one as U+FFFD.

An ill-formed piece is as long as a prefix of a well-formed sequence can be, so a broken sequence of
four bytes counts once, and a byte that begins nothing counts alone.
-/

namespace Interpolation.Text

/-- The bytes of a text. -/
def toBytes (t : Text) : List UInt8 := t.flatMap String.utf8EncodeChar

/-! ### Units -/

/-- What a first byte announces: how many bytes follow, which range the next one has to be in, and
the bits it contributes. The ranges exclude overlong forms, surrogates and values above U+10FFFF. -/
structure Lead where
  /-- How many bytes follow. -/
  count : Nat
  /-- The least second byte. -/
  low : Nat
  /-- The greatest second byte. -/
  high : Nat
  /-- The leading bits of the scalar value. -/
  bits : Nat

/-- The announcement of a first byte; none for a byte that begins no sequence. -/
def Lead.ofByte? (b : Nat) : Option Lead :=
  if b < 0x80 then some ⟨0, 0, 0, b⟩
  else if b < 0xC2 then none
  else if b < 0xE0 then some ⟨1, 0x80, 0xBF, b - 0xC0⟩
  else if b = 0xE0 then some ⟨2, 0xA0, 0xBF, 0⟩
  else if b = 0xED then some ⟨2, 0x80, 0x9F, 0xD⟩
  else if b < 0xF0 then some ⟨2, 0x80, 0xBF, b - 0xE0⟩
  else if b = 0xF0 then some ⟨3, 0x90, 0xBF, 0⟩
  else if b < 0xF4 then some ⟨3, 0x80, 0xBF, b - 0xF0⟩
  else if b = 0xF4 then some ⟨3, 0x80, 0x8F, 4⟩
  else none

/-- Take the bytes that continue a sequence: its value if all of them are there, and what remains
after the last one that belongs to it. -/
def continueUnit : (count low high bits : Nat) → List UInt8 → Option Nat × List UInt8
  | 0, _, _, bits, rest => (some bits, rest)
  | _ + 1, _, _, _, [] => (none, [])
  | count + 1, low, high, bits, b :: rest =>
    if low ≤ b.toNat ∧ b.toNat ≤ high then
      continueUnit count 0x80 0xBF (bits * 64 + b.toNat % 64) rest
    else (none, b :: rest)

/-- What remains after a unit is no longer than what stood after its first byte. -/
theorem length_continueUnit_le (count low high bits : Nat) (rest : List UInt8) :
    (continueUnit count low high bits rest).2.length ≤ rest.length := by
  induction rest generalizing count low high bits with
  | nil => cases count <;> simp [continueUnit]
  | cons b rest ih =>
    cases count with
    | zero => simp [continueUnit]
    | succ count =>
      rw [continueUnit]
      split
      · exact Nat.le_trans (ih _ _ _ _) (Nat.le_succ _)
      · exact Nat.le_refl _

/-- The units of a byte sequence in order: a scalar value, or `none` for an ill-formed piece. -/
def units : List UInt8 → List (Option Char)
  | [] => []
  | b :: rest =>
    match Lead.ofByte? b.toNat with
    | none => none :: units rest
    | some lead =>
      let step := continueUnit lead.count lead.low lead.high lead.bits rest
      step.1.map Char.ofNat :: units step.2
termination_by bytes => bytes.length
decreasing_by
  · simp
  · have := length_continueUnit_le lead.count lead.low lead.high lead.bits rest
    simp only [List.length_cons]
    omega

/-! ### Readers -/

/-- The text with these bytes; nothing if they are not well-formed. -/
def ofBytes? (bytes : List UInt8) : Option Text := (units bytes).mapM id

/-- The text with these bytes, each ill-formed piece shown as U+FFFD. -/
def ofBytesLossy (bytes : List UInt8) : Text :=
  (units bytes).map fun unit => unit.getD (Char.ofNat 0xFFFD)

end Interpolation.Text

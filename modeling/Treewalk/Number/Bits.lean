import Treewalk.Number.Basic

/-!
# Bit patterns

The 64-bit interchange format: sign, eleven exponent bits, 52 fraction bits. An exponent field `e > 0`
stands for the count `(2⁵² + fraction) · 2ᵉ⁻¹` of quanta, and `e = 0` for `fraction` quanta.
-/

namespace Treewalk.Number

/-- The count of quanta of a finite pattern. -/
def countOfFields (exponent fraction : Nat) : Nat :=
  if exponent = 0 then fraction else (2 ^ 52 + fraction) * 2 ^ (exponent - 1)

theorem representable_countOfFields {exponent fraction : Nat} (he : exponent < 2047)
    (hf : fraction < 2 ^ 52) : Representable (countOfFields exponent fraction) := by
  unfold countOfFields
  split
  · refine ⟨?_, ?_⟩
    · have := Quanta.two_pow_place_dvd fraction 0 (by omega)
      simpa using this
    · exact Nat.lt_trans hf (Nat.pow_lt_pow_right (by decide) (by decide))
  · refine ⟨Quanta.two_pow_place_dvd _ _ (by omega), ?_⟩
    have small : 2 ^ 52 + fraction < 2 ^ 53 := by omega
    refine Nat.lt_of_lt_of_le (Nat.mul_lt_mul_of_pos_right small (Nat.two_pow_pos _)) ?_
    rw [← Nat.pow_add]
    refine Nat.pow_le_pow_right (by decide) ?_
    simp only [Quanta.depth, Quanta.height]
    omega

/-- The number of a bit pattern; the payload is for a pattern that is a not-a-number. -/
def ofBits (payload : Nat) (bits : UInt64) : Number :=
  let pattern := bits.toNat
  let negative := pattern / 2 ^ 63 % 2 == 1
  let exponent := pattern / 2 ^ 52 % 2048
  let fraction := pattern % 2 ^ 52
  if he : exponent < 2047 then
    .finite negative (countOfFields exponent fraction)
      (representable_countOfFields he (Nat.mod_lt _ (Nat.two_pow_pos 52)))
  else if fraction = 0 then .infinite negative
  else .nan payload

/-- Exponent and fraction fields of a count of quanta, in one. -/
def fieldsOfCount (count : Nat) : Nat :=
  Quanta.place count * 2 ^ 52 + count / 2 ^ Quanta.place count

/-- The bit pattern of a number, if it is one. -/
def toBits? : Number → Option UInt64
  | .nan _ => none
  | .infinite negative => some (UInt64.ofNat (negative.toNat * 2 ^ 63 + 2047 * 2 ^ 52))
  | .finite negative count _ => some (UInt64.ofNat (negative.toNat * 2 ^ 63 + fieldsOfCount count))

end Treewalk.Number

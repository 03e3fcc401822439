import Treewalk.Proofs.Value.Equality

/-!
# Whole numbers

A number is numerically equal to an integer if it is finite and has that many times the quanta of one
(`Number.IsInt`); the two zeros are both equal to 0. Up to `2⁵³` every integer has a number, and sums and
differences of whole numbers that stay there are exact: rounding leaves a count alone that has 53
significand bits.
-/

namespace Treewalk

/-! ## Exact counts -/

namespace Quanta

/-- A count of 53 significand bits is its own rounding. -/
theorem nearest_of_dvd {count : Nat} (exact_ : 2 ^ place count ∣ count) : nearest count 1 = count := by
  have whole : count % 2 ^ place count = 0 := Nat.mod_eq_zero_of_dvd exact_
  have unit : 0 < 2 ^ place count := Nat.two_pow_pos _
  simp only [nearest, Nat.div_one, Nat.one_mul, divideToEven, whole, Nat.mul_zero, unit, true_or, if_true]
  exact Nat.div_mul_cancel exact_

theorem representable_mul_one {n : Nat} (small : n ≤ 2 ^ 53) : Representable (n * one) := by
  refine ⟨two_pow_place_dvd n depth small, ?_⟩
  calc n * one ≤ 2 ^ 53 * one := Nat.mul_le_mul_right one small
    _ = 2 ^ (53 + depth) := by rw [one, Nat.pow_add]
    _ < bound := Nat.pow_lt_pow_right (by decide) (by decide)

end Quanta

namespace Number

variable {x y : Number} {j k : Int}

theorem round_of_representable {count : Nat} (negative : Bool) (valid : Representable count) :
    round negative count 1 = .finite negative count valid := by
  have same := Quanta.nearest_of_dvd valid.1
  unfold round
  rw [dif_pos (by rw [same]; exact valid.2)]
  congr

theorem signed_natAbs (sum : Int) : signed (sum < 0) sum.natAbs = sum := by
  by_cases below : sum < 0
  · simp only [signed, below, decide_true, if_true]
    omega
  · simp only [signed, below, decide_false, Bool.false_eq_true, if_false]
    omega

theorem signed_mul (negative : Bool) (n unit : Nat) :
    signed negative (n * unit) = signed negative n * unit := by
  cases negative with
  | false => exact Int.natCast_mul n unit
  | true => simp only [signed, if_true, Int.natCast_mul, Int.neg_mul]

theorem signed_not (negative : Bool) (count : Nat) : signed (!negative) count = -signed negative count := by
  cases negative <;> simp [signed]

/-! ## Numbers that are integers -/

/-- A number is numerically equal to an integer. -/
def IsInt (x : Number) (k : Int) : Prop :=
  ∃ negative count valid, x = .finite negative count valid ∧ signed negative count = k * Quanta.one

theorem quanta_ne_zero : (Quanta.one : Int) ≠ 0 :=
  Int.natCast_ne_zero.mpr (Nat.ne_of_gt Quanta.one_pos)

/-- Numbers that are equal to one integer are equal. -/
theorem IsInt.eq (one : x.IsInt k) (two : y.IsInt k) : x.eq y := by
  obtain ⟨_, _, _, rfl, first⟩ := one
  obtain ⟨_, _, _, rfl, second⟩ := two
  exact eq_iff.mpr ⟨_, congrArg some first, congrArg some second⟩

/-- And no others are. -/
theorem IsInt.eq_iff (one : x.IsInt j) (two : y.IsInt k) : x.eq y ↔ j = k := by
  refine ⟨fun equal => ?_, fun same => IsInt.eq one (same ▸ two)⟩
  obtain ⟨_, _, _, rfl, first⟩ := one
  obtain ⟨_, _, _, rfl, second⟩ := two
  obtain ⟨place, one, two⟩ := Number.eq_iff.mp equal
  have same := Option.some.inj (one.trans two.symm)
  exact Int.eq_of_mul_eq_mul_right quanta_ne_zero (first.symm.trans (same.trans second))

/-- The integer of a number is found if there is one. -/
theorem toInt?_eq_some_iff : x.toInt? = some k ↔ x.IsInt k := by
  constructor
  · intro found
    cases x with
    | nan | infinite => cases found
    | finite negative count valid =>
        simp only [toInt?, Option.ite_none_right_eq_some, Option.some.injEq] at found
        obtain ⟨whole, rfl⟩ := found
        refine ⟨negative, count, valid, rfl, ?_⟩
        rw [← signed_mul, Nat.div_mul_cancel (Nat.dvd_of_mod_eq_zero whole)]
  · rintro ⟨negative, count, valid, rfl, quanta⟩
    have whole : Quanta.one ∣ count := by
      refine Int.natCast_dvd_natCast.mp ?_
      have dvd : (Quanta.one : Int) ∣ signed negative count := ⟨k, by rw [quanta, Int.mul_comm]⟩
      cases negative with
      | false => exact dvd
      | true => exact Int.dvd_neg.mp dvd
    have integer : signed negative (count / Quanta.one) = k := by
      refine Int.eq_of_mul_eq_mul_right quanta_ne_zero ?_
      rw [← signed_mul, Nat.div_mul_cancel whole, quanta]
    rw [toInt?, if_pos (Nat.mod_eq_zero_of_dvd whole), integer]

theorem isInt_zero (negative : Bool) : (zero negative).IsInt 0 := by
  refine ⟨negative, 0, representable_zero, rfl, ?_⟩
  rw [Int.zero_mul]
  cases negative <;> rfl

theorem isInt_ofNat {n : Nat} (small : n ≤ 2 ^ 53) : (ofNat n).IsInt n := by
  refine ⟨false, _, _, round_of_representable false (Quanta.representable_mul_one small), ?_⟩
  exact signed_mul false n Quanta.one

theorem IsInt.neg (isInt : x.IsInt k) (payload : Nat) : (x.neg payload).IsInt (-k) := by
  obtain ⟨negative, count, valid, rfl, quanta⟩ := isInt
  exact ⟨!negative, count, valid, rfl, by rw [signed_not, quanta, Int.neg_mul]⟩

theorem IsInt.add (one : x.IsInt j) (two : y.IsInt k) (small : (j + k).natAbs ≤ 2 ^ 53) (payload : Nat) :
    (x.add payload y).IsInt (j + k) := by
  obtain ⟨s, _, _, rfl, first⟩ := one
  obtain ⟨t, _, _, rfl, second⟩ := two
  simp only [Number.add, first, second, ← Int.add_mul]
  by_cases none : (j + k) * (Quanta.one : Int) = 0
  · rw [if_pos none, (Int.mul_eq_zero.mp none).resolve_right quanta_ne_zero]
    exact isInt_zero _
  · have valid : Representable ((j + k) * (Quanta.one : Int)).natAbs := by
      rw [Int.natAbs_mul, Int.natAbs_natCast]
      exact Quanta.representable_mul_one small
    rw [if_neg none, round_of_representable _ valid]
    exact ⟨_, _, valid, rfl, signed_natAbs _⟩

theorem IsInt.sub (one : x.IsInt j) (two : y.IsInt k) (small : (j - k).natAbs ≤ 2 ^ 53) (payload : Nat) :
    (x.sub payload y).IsInt (j - k) := by
  rw [Int.sub_eq_add_neg] at small ⊢
  exact one.add (two.neg payload) small payload

end Number

end Treewalk

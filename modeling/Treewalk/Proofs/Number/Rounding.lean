import Treewalk.Proofs.Number.Whole

/-!
# Correct rounding

A count of quanta is *precise* if it has 53 significand bits. `Rounds value count` says that `count` is the
correct rounding of an exact value: no precise count is nearer to it, and where another is as near, the
significand is even. There is one rounding of each value (`Rounds.unique`), greater values are not rounded to
less (`Rounds.le`), and `nearest` finds it (`rounds_nearest`). No two precise counts are closer than one part
in `10¹⁶` (`Precise.apart`).
-/

namespace Treewalk.Quanta

/-- A count with 53 significand bits. -/
def Precise (count : Nat) : Prop := 2 ^ place count ∣ count

/-- The significand bits of a count. -/
def significand (count : Nat) : Nat := count / 2 ^ place count

/-- A count is the correct rounding of a value: the nearest one, and with an even significand in a tie. -/
structure Rounds (value : ℚ) (count : Nat) : Prop where
  precise : Precise count
  nearest : ∀ other, Precise other → |(count : ℚ) - value| ≤ |(other : ℚ) - value|
  even : ∀ other, Precise other → other ≠ count → |(other : ℚ) - value| = |(count : ℚ) - value| →
    significand count % 2 = 0

/-! ## Precise counts -/

section Precise

variable {count other : Nat}

theorem precise_mul {n : Nat} (small : n ≤ 2 ^ 53) (e : Nat) : Precise (n * 2 ^ e) :=
  two_pow_place_dvd n e small

theorem significand_lt (count : Nat) : significand count < 2 ^ 53 := div_place_lt count

theorem Precise.eq_mul (precise : Precise count) : count = significand count * 2 ^ place count :=
  (Nat.div_mul_cancel precise).symm

theorem place_mono (le : count ≤ other) : place count ≤ place other := by
  refine Nat.sub_le_sub_right ?_ 52
  rw [Nat.log2_eq_log_two, Nat.log2_eq_log_two]
  exact Nat.log_mono_right le

/-- A significand has all of its bits unless its last place is the last of all. -/
theorem place_eq_zero_or (count : Nat) : place count = 0 ∨ 2 ^ 52 ≤ significand count := by
  rcases Nat.eq_zero_or_pos (place count) with none | positive
  · exact .inl none
  · have log : 52 + place count = count.log2 := by
      unfold place at positive ⊢
      omega
    have some : count ≠ 0 := by
      rintro rfl
      exact absurd positive (by decide)
    refine .inr ((Nat.le_div_iff_mul_le (Nat.two_pow_pos _)).mpr ?_)
    rw [← Nat.pow_add, log]
    exact Nat.log2_self_le some

/-- The last place of a significand that is written out. -/
theorem place_mul {n e : Nat} (small : n < 2 ^ 53) (full : e = 0 ∨ 2 ^ 52 ≤ n) : place (n * 2 ^ e) = e := by
  by_cases zero : n = 0
  · subst zero
    rcases full with rfl | full
    · rfl
    · exact absurd full (by decide)
  · have some : n * 2 ^ e ≠ 0 := Nat.mul_ne_zero zero (Nat.ne_of_gt (Nat.two_pow_pos e))
    have upper : (n * 2 ^ e).log2 < 53 + e := by
      rw [Nat.log2_lt some, Nat.pow_add]
      exact Nat.mul_lt_mul_of_pos_right small (Nat.two_pow_pos e)
    unfold place
    rcases full with rfl | full
    · omega
    · have lower : 52 + e ≤ (n * 2 ^ e).log2 := by
        rw [Nat.le_log2 some, Nat.pow_add]
        exact Nat.mul_le_mul_right (2 ^ e) full
      omega

theorem significand_mul {n e : Nat} (small : n < 2 ^ 53) (full : e = 0 ∨ 2 ^ 52 ≤ n) :
    significand (n * 2 ^ e) = n := by
  rw [significand, place_mul small full, Nat.mul_div_cancel _ (Nat.two_pow_pos e)]

/-- From one precise count to the next it is at least one unit of its last place. -/
theorem Precise.add_le (precise : Precise count) (preciseToo : Precise other) (less : count < other) :
    count + 2 ^ place count ≤ other := by
  have dvd : 2 ^ place count ∣ other :=
    (Nat.pow_dvd_pow 2 (place_mono (Nat.le_of_lt less))).trans preciseToo
  have gap := Nat.le_of_dvd (Nat.sub_pos_of_lt less) (Nat.dvd_sub dvd precise)
  omega

/-- A unit of the last place further there is a precise count, and of the two significands one is odd. -/
theorem Precise.next (precise : Precise count) : Precise (count + 2 ^ place count) ∧
    (significand count % 2 = 0 → significand (count + 2 ^ place count) % 2 = 1) := by
  have next : count + 2 ^ place count = (significand count + 1) * 2 ^ place count := by
    rw [Nat.add_mul, Nat.one_mul, ← precise.eq_mul]
  have small := significand_lt count
  refine ⟨next ▸ precise_mul small _, fun even => ?_⟩
  have full : place count = 0 ∨ 2 ^ 52 ≤ significand count + 1 := (place_eq_zero_or count).imp_right Nat.le_succ_of_le
  rw [next, significand_mul (by omega) full]
  omega

/-- No two precise counts are closer than one part in `10¹⁶`. -/
theorem Precise.apart (precise : Precise count) (preciseToo : Precise other) (different : other ≠ count) :
    (count : ℚ) < 10 ^ 16 * |(other : ℚ) - count| := by
  -- The gap is a unit of the last place of the lesser one, which has less than `2⁵³` of them.
  have key (low high : Nat) (first : Precise low) (second : Precise high) (less : low < high) :
      (high : ℚ) < 10 ^ 16 * (high - low) := by
    have gap := first.add_le second less
    have units : low < 2 ^ 53 * 2 ^ place low := by
      conv_lhs => rw [first.eq_mul]
      exact Nat.mul_lt_mul_of_pos_right (significand_lt low) (Nat.two_pow_pos _)
    generalize 2 ^ place low = unit at gap units
    have bound : (high : ℚ) - low < 10 ^ 16 * (high - low) - low := by
      have one : (low : ℚ) + unit ≤ high := by exact_mod_cast gap
      have two : (low : ℚ) < 2 ^ 53 * unit := by exact_mod_cast units
      linarith
    linarith
  rcases Nat.lt_or_gt_of_ne different with less | more
  · rw [abs_sub_comm, abs_of_pos (sub_pos.mpr (Nat.cast_lt.mpr less))]
    exact key other count preciseToo precise less
  · rw [abs_of_pos (sub_pos.mpr (Nat.cast_lt.mpr more))]
    have less : (count : ℚ) < other := Nat.cast_lt.mpr more
    exact less.trans (key count other precise preciseToo more)

end Precise

/-! ## One rounding, and in order -/

/-- A value is nearer to the greater of two places from the middle between them on, and to the lesser one
up to there. -/
theorem abs_sub_le_iff_middle {low high : ℚ} (less : low < high) (value : ℚ) :
    (|high - value| ≤ |low - value| ↔ low + high ≤ 2 * value) ∧
      (|low - value| ≤ |high - value| ↔ 2 * value ≤ low + high) := by
  have apart : 0 < high - low := sub_pos.mpr less
  have squares : (high - value) ^ 2 - (low - value) ^ 2 = (high - low) * (low + high - 2 * value) := by ring
  have opposite : (low - value) ^ 2 - (high - value) ^ 2 = (high - low) * (2 * value - (low + high)) := by ring
  constructor
  · rw [← sq_le_sq, ← sub_nonneg, opposite, mul_nonneg_iff_of_pos_left apart, sub_nonneg]
  · rw [← sq_le_sq, ← sub_nonneg, squares, mul_nonneg_iff_of_pos_left apart, sub_nonneg]

namespace Rounds

variable {value larger : ℚ} {count other : Nat}

theorem le_middle (rounds : Rounds value count) (precise : Precise other) (less : count < other) :
    2 * value ≤ count + other :=
  (abs_sub_le_iff_middle (Nat.cast_lt.mpr less) value).2.mp (rounds.nearest other precise)

theorem middle_le (rounds : Rounds value count) (precise : Precise other) (less : other < count) :
    (other : ℚ) + count ≤ 2 * value :=
  (abs_sub_le_iff_middle (Nat.cast_lt.mpr less) value).1.mp (rounds.nearest other precise)

/-- Two roundings of a value are the same. Otherwise they are neighbours, and one significand is odd. -/
theorem unique (rounds : Rounds value count) (roundsToo : Rounds value other) : count = other := by
  have key (low high : Nat) (first : Rounds value low) (second : Rounds value high) : ¬low < high := by
    intro less
    have upTo := first.le_middle second.precise less
    have onward := second.middle_le first.precise less
    have neighbour : high = low + 2 ^ place low := by
      refine Nat.le_antisymm (Nat.not_lt.mp fun inside => ?_) (first.precise.add_le second.precise less)
      have after : low < low + 2 ^ place low := Nat.lt_add_of_pos_right (Nat.two_pow_pos _)
      have nearer := first.le_middle first.precise.next.1 after
      have beyond : ((low + 2 ^ place low : Nat) : ℚ) < high := Nat.cast_lt.mpr inside
      linarith
    have same := le_antisymm (second.nearest low first.precise) (first.nearest high second.precise)
    have even := first.even high second.precise (Nat.ne_of_gt less) same
    have evenToo := second.even low first.precise (Nat.ne_of_lt less) same.symm
    rw [neighbour, first.precise.next.2 even] at evenToo
    exact absurd evenToo (by decide)
  exact Nat.le_antisymm (Nat.not_lt.mp (key other count roundsToo rounds))
    (Nat.not_lt.mp (key count other rounds roundsToo))

/-- A greater value is not rounded to less. -/
theorem le (rounds : Rounds value count) (roundsToo : Rounds larger other) (ordered : value ≤ larger) :
    count ≤ other := by
  refine Nat.not_lt.mp fun less => ?_
  have onward := rounds.middle_le roundsToo.precise less
  have upTo := roundsToo.le_middle rounds.precise less
  have same : larger = value := by linarith
  exact absurd (rounds.unique (same ▸ roundsToo)) (Nat.ne_of_gt less)

/-- A precise count is the rounding of every value that is nearer to it than half of the way to others. -/
theorem of_close (precise : Precise count)
    (close : ∀ other, Precise other → other ≠ count → 2 * |(count : ℚ) - value| < |(other : ℚ) - count|) :
    Rounds value count := by
  have nearer (other : Nat) (preciseToo : Precise other) (different : other ≠ count) :
      |(count : ℚ) - value| < |(other : ℚ) - value| := by
    have far := close other preciseToo different
    have way := abs_sub_le (other : ℚ) value count
    rw [abs_sub_comm value] at way
    linarith
  refine ⟨precise, fun other preciseToo => ?_, fun other preciseToo different same => ?_⟩
  · by_cases equal : other = count
    · rw [equal]
    · exact (nearer other preciseToo equal).le
  · exact absurd same (nearer other preciseToo different).ne'

/-- A precise count is its own rounding. -/
theorem self (precise : Precise count) : Rounds count count := by
  refine of_close precise fun other preciseToo different => ?_
  rw [sub_self, abs_zero, mul_zero, abs_pos, sub_ne_zero]
  exact_mod_cast different

/-- What stands between a precise count and a value that is rounded to it is rounded to it, too. -/
theorem between {inside : ℚ} {found : Nat} (rounds : Rounds value count) (roundsToo : Rounds inside found)
    (within : count ≤ inside ∧ inside ≤ value ∨ value ≤ inside ∧ inside ≤ count) : found = count := by
  have self := Rounds.self rounds.precise
  rcases within with ⟨low, high⟩ | ⟨low, high⟩
  · exact Nat.le_antisymm (roundsToo.le rounds high) (self.le roundsToo low)
  · exact Nat.le_antisymm (roundsToo.le self high) (rounds.le roundsToo low)

end Rounds

/-! ## What is computed -/

/-- The rounded quotient is within a half of the quotient, and even if it is a half away. -/
theorem divideToEven_spec (num : Nat) {den : Nat} (positive : 0 < den) :
    2 * |(divideToEven num den : ℚ) * den - num| ≤ den ∧
      (2 * |(divideToEven num den : ℚ) * den - num| = den → divideToEven num den % 2 = 0) := by
  have rest : num % den < den := Nat.mod_lt num positive
  have whole : (num : ℚ) = den * (num / den : Nat) + (num % den : Nat) := by
    exact_mod_cast (Nat.div_add_mod num den).symm
  unfold divideToEven
  dsimp only
  generalize num / den = floor at whole
  generalize num % den = left at whole rest
  split
  · rename_i down
    have distance : |(floor : ℚ) * den - num| = left := by
      rw [whole, show (floor : ℚ) * den - (den * floor + left) = -left by ring, abs_neg, Nat.abs_cast]
    rw [distance]
    refine ⟨by exact_mod_cast (by omega : 2 * left ≤ den), fun tie => ?_⟩
    have tie : 2 * left = den := by exact_mod_cast tie
    omega
  · rename_i up
    have distance : |((floor + 1 : Nat) : ℚ) * den - num| = (den - left : Nat) := by
      rw [Nat.cast_sub rest.le, whole, ← abs_of_nonneg (sub_nonneg.mpr (Nat.cast_le.mpr rest.le))]
      push_cast
      ring_nf
    rw [distance]
    refine ⟨by exact_mod_cast (by omega : 2 * (den - left) ≤ den), fun tie => ?_⟩
    have tie : 2 * (den - left) = den := by exact_mod_cast tie
    omega

/-- A whole multiple of a unit that is within a half of it is the nearest, and in a tie it is a half away. -/
theorem abs_sub_le_of_half {unit value : ℚ} {n : Nat} (half : 2 * |(n : ℚ) * unit - value| ≤ unit)
    (m : Nat) : |(n : ℚ) * unit - value| ≤ |(m : ℚ) * unit - value| ∧
      (m ≠ n → |(m : ℚ) * unit - value| = |(n : ℚ) * unit - value| →
        2 * |(n : ℚ) * unit - value| = unit) := by
  have positive : 0 ≤ unit := by linarith [abs_nonneg ((n : ℚ) * unit - value)]
  by_cases same : m = n
  · subst same
    exact ⟨le_rfl, fun different => absurd rfl different⟩
  · have step : (1 : ℚ) ≤ |(m : ℚ) - n| := by
      have steps : (1 : Int) ≤ |(m : Int) - n| := Int.one_le_abs (sub_ne_zero.mpr (by exact_mod_cast same))
      exact_mod_cast steps
    have apart : unit ≤ |(m : ℚ) * unit - value| + |(n : ℚ) * unit - value| := by
      calc unit ≤ |(m : ℚ) - n| * unit := le_mul_of_one_le_left positive step
        _ = |(m : ℚ) * unit - n * unit| := by rw [← sub_mul, abs_mul, abs_of_nonneg positive]
        _ ≤ |(m : ℚ) * unit - value| + |value - n * unit| := abs_sub_le _ _ _
        _ = _ := by rw [abs_sub_comm value]
    exact ⟨by linarith, fun _ tie => by linarith⟩

/-- A precise count that is no multiple of a unit is below all counts that have their last place there. -/
theorem Precise.lt_of_not_dvd {floor other : Nat} (precise : Precise other)
    (unaligned : ¬2 ^ place floor ∣ other) :
    other < 2 ^ 52 * 2 ^ place floor ∧ 2 ^ 52 * 2 ^ place floor ≤ floor := by
  have lower : place other < place floor :=
    Nat.not_le.mp fun le => unaligned ((Nat.pow_dvd_pow 2 le).trans precise)
  constructor
  · calc other = significand other * 2 ^ place other := precise.eq_mul
      _ < 2 ^ 53 * 2 ^ place other := Nat.mul_lt_mul_of_pos_right (significand_lt other) (Nat.two_pow_pos _)
      _ = 2 ^ 52 * 2 ^ (place other + 1) := by rw [← Nat.pow_add, ← Nat.pow_add, Nat.add_comm _ 1, ← Nat.add_assoc]
      _ ≤ 2 ^ 52 * 2 ^ place floor := Nat.mul_le_mul_left _ (Nat.pow_le_pow_right (by decide) lower)
  · have full := (place_eq_zero_or floor).resolve_left (Nat.ne_zero_of_lt lower)
    exact (Nat.le_div_iff_mul_le (Nat.two_pow_pos _)).mp full

theorem le_divideToEven (num den : Nat) : num / den ≤ divideToEven num den := by
  unfold divideToEven
  dsimp only
  split <;> omega

/-- An even number of units of the last place leaves an even significand. Where the units are `2⁵³`, the
last place is one higher, and the significand is half of that. -/
theorem even_significand_nearest (num den : Nat)
    (even : divideToEven num (den * 2 ^ place (num / den)) % 2 = 0) :
    significand (nearest num den) % 2 = 0 := by
  have upper := divideToEven_le num (den * 2 ^ place (num / den))
  have lower := le_divideToEven num (den * 2 ^ place (num / den))
  rw [← Nat.div_div_eq_div_mul] at upper lower
  have small : num / den / 2 ^ place (num / den) < 2 ^ 53 := div_place_lt _
  have full := place_eq_zero_or (num / den)
  change significand (divideToEven num (den * 2 ^ place (num / den)) * 2 ^ place (num / den)) % 2 = 0
  unfold significand at full
  generalize divideToEven num (den * 2 ^ place (num / den)) = units at even upper lower ⊢
  generalize num / den / 2 ^ place (num / den) = bits at upper lower small full
  generalize place (num / den) = e at full ⊢
  by_cases carried : units = 2 ^ 53
  · have higher : units * 2 ^ e = 2 ^ 52 * 2 ^ (e + 1) := by
      rw [carried, ← Nat.pow_add, ← Nat.pow_add, Nat.add_comm e 1, ← Nat.add_assoc]
    rw [higher, significand_mul (by decide) (.inr le_rfl)]
    rfl
  · rw [significand_mul (by omega) (full.imp_right fun bound => bound.trans lower)]
    exact even

/-- The nearest count is a multiple of the unit at the last place of the quotient, within a half of it. -/
theorem exists_units_nearest (num : Nat) {den : Nat} (positive : 0 < den) :
    ∃ units : Nat, nearest num den = units * 2 ^ place (num / den) ∧
      2 * |(units : ℚ) * (2 ^ place (num / den) : Nat) - num / den| ≤ (2 ^ place (num / den) : Nat) ∧
      (2 * |(units : ℚ) * (2 ^ place (num / den) : Nat) - num / den| = (2 ^ place (num / den) : Nat) →
        significand (nearest num den) % 2 = 0) := by
  have pos : (0 : ℚ) < den := Nat.cast_pos.mpr positive
  have even := even_significand_nearest num den
  obtain ⟨half, tie⟩ := divideToEven_spec num (Nat.mul_pos positive (Nat.two_pow_pos (place (num / den))))
  refine ⟨divideToEven num (den * 2 ^ place (num / den)), rfl, ?_⟩
  generalize divideToEven num (den * 2 ^ place (num / den)) = units at even half tie ⊢
  generalize 2 ^ place (num / den) = unit at half tie ⊢
  have scaled : |(units : ℚ) * (den * unit : Nat) - num| = den * |(units : ℚ) * unit - num / den| := by
    rw [← abs_of_pos pos, ← abs_mul, abs_of_pos pos]
    push_cast
    field_simp
  rw [scaled, Nat.cast_mul, mul_left_comm] at half tie
  exact ⟨le_of_mul_le_mul_left half pos, fun middle => even (tie (congrArg (_ * ·) middle))⟩

/-- The nearest count is the correct rounding of a quotient. A count that has its last place where the
quotient has it is a multiple of the unit there, and all others are below, with a multiple in between. -/
theorem rounds_nearest (num : Nat) {den : Nat} (positive : 0 < den) :
    Rounds ((num : ℚ) / den) (nearest num den) := by
  have precise : Precise (nearest num den) := two_pow_place_nearest_dvd num den
  have floor : ((num / den : Nat) : ℚ) ≤ num / den := Nat.cast_div_le
  have below (other : Nat) (preciseToo : Precise other) (unaligned : ¬2 ^ place (num / den) ∣ other) :=
    preciseToo.lt_of_not_dvd unaligned
  obtain ⟨units, found, half, even⟩ := exists_units_nearest num positive
  generalize 2 ^ place (num / den) = unit at found half even below
  have nearer := abs_sub_le_of_half half
  have place : (nearest num den : ℚ) = units * unit := by rw [found, Nat.cast_mul]
  rw [← place] at nearer even
  have farther (other : Nat) (preciseToo : Precise other) (unaligned : ¬unit ∣ other) :
      |(nearest num den : ℚ) - num / den| < |(other : ℚ) - num / den| := by
    obtain ⟨less, within⟩ := below other preciseToo unaligned
    have first : (other : ℚ) < (2 ^ 52 * unit : Nat) := Nat.cast_lt.mpr less
    have second : ((2 ^ 52 * unit : Nat) : ℚ) ≤ num / den := (Nat.cast_le.mpr within).trans floor
    have between := (nearer (2 ^ 52)).1
    rw [← Nat.cast_mul, abs_of_nonpos (sub_nonpos.mpr second)] at between
    rw [abs_of_neg (sub_neg.mpr (first.trans_le second))]
    exact between.trans_lt (neg_lt_neg (sub_lt_sub_right first _))
  refine ⟨precise, fun other preciseToo => ?_, fun other preciseToo different same => ?_⟩
  · by_cases aligned : unit ∣ other
    · obtain ⟨m, rfl⟩ := aligned
      rw [Nat.mul_comm, Nat.cast_mul]
      exact (nearer m).1
    · exact (farther other preciseToo aligned).le
  · by_cases aligned : unit ∣ other
    · obtain ⟨m, rfl⟩ := aligned
      rw [Nat.mul_comm, Nat.cast_mul] at same
      refine even ((nearer m).2 (fun equal => different ?_) same)
      rw [found, equal, Nat.mul_comm]
    · exact absurd same (farther other preciseToo aligned).ne'

end Treewalk.Quanta

import Treewalk.Number.Shortest
import Treewalk.Proofs.Number.Rounding

/-!
# Shortest decimals

A decimal reads back as a count of quanta if it is rounded to it. Between the count and a decimal that reads
back all decimals do (`quanta_eq_of_between`), so on each decimal grid it is enough to look at the two
neighbours of the count; and on a grid of seventeen digits the nearer one always reads back, since precise
counts are farther apart than that. So the decimal that is found reads back, no other that does has fewer
figures, and none of as many is nearer (`isShortest_shortest`).
-/

namespace Treewalk

open Quanta (Rounds Precise)

/-- The exact value of a count of quanta. -/
def Quanta.value (count : Nat) : ℚ := count / Quanta.one

theorem Quanta.cast_one_pos : (0 : ℚ) < Quanta.one := Nat.cast_pos.mpr Quanta.one_pos

theorem Quanta.value_mul_one (count : Nat) : Quanta.value count * Quanta.one = count :=
  div_mul_cancel₀ _ Quanta.cast_one_pos.ne'

namespace Decimal

/-- The exact value of a decimal. -/
def value (d : Decimal) : ℚ := d.digits * (10 : ℚ) ^ d.exponent

theorem ten_zpow_pos (e : Int) : (0 : ℚ) < 10 ^ e := zpow_pos (by norm_num) e

/-- A power of ten as a quotient of naturals. -/
theorem ten_zpow_eq (e : Int) : (10 : ℚ) ^ e = (10 ^ e.toNat : Nat) / (10 ^ (-e).toNat : Nat) := by
  obtain ⟨n, rfl | rfl⟩ := e.eq_nat_or_neg
  · simp
  · simp

theorem value_eq_div (d : Decimal) : (d.num : ℚ) / d.den = d.value := by
  rw [num, den, value, ten_zpow_eq, Nat.cast_mul, mul_div_assoc]

/-- What a decimal reads back as is its correct rounding. -/
theorem rounds_quanta (d : Decimal) : Rounds (d.value * Quanta.one) d.quanta := by
  have positive : 0 < d.den := Nat.pow_pos (by decide)
  have rounds := Quanta.rounds_nearest (d.num * Quanta.one) positive
  rwa [Nat.cast_mul, mul_div_right_comm, value_eq_div] at rounds

variable {count : Nat} {d other : Decimal}

/-- Decimals of the same value read back the same. -/
theorem quanta_congr (same : d.value = other.value) : d.quanta = other.quanta :=
  (same ▸ d.rounds_quanta).unique other.rounds_quanta

/-- Between a count and a decimal that reads back as it, all decimals do. -/
theorem quanta_eq_of_between (reads : other.quanta = count)
    (between : Quanta.value count ≤ d.value ∧ d.value ≤ other.value ∨
      other.value ≤ d.value ∧ d.value ≤ Quanta.value count) : d.quanta = count := by
  have order {a b : ℚ} (le : a ≤ b) : a * Quanta.one ≤ b * Quanta.one :=
    mul_le_mul_of_nonneg_right le Quanta.cast_one_pos.le
  refine (reads ▸ other.rounds_quanta).between d.rounds_quanta ?_
  rw [← Quanta.value_mul_one count]
  exact between.imp (fun inside => ⟨order inside.1, order inside.2⟩)
    fun inside => ⟨order inside.1, order inside.2⟩

/-! ## Neighbours on a grid -/

/-- A quotient lies between two neighbouring naturals, on this side of their middle or on that. -/
theorem floor_spec (num : Nat) {den : Nat} (positive : 0 < den) :
    ((num / den : Nat) : ℚ) ≤ num / den ∧ (num : ℚ) / den < (num / den : Nat) + 1 ∧
      (2 * (num % den) ≤ den → 2 * ((num : ℚ) / den) ≤ 2 * (num / den : Nat) + 1) ∧
      (den ≤ 2 * (num % den) → 2 * ((num / den : Nat) : ℚ) + 1 ≤ 2 * ((num : ℚ) / den)) := by
  have pos : (0 : ℚ) < den := Nat.cast_pos.mpr positive
  have rest : ((num % den : Nat) : ℚ) < den := Nat.cast_lt.mpr (Nat.mod_lt num positive)
  have whole : (num : ℚ) = den * (num / den : Nat) + (num % den : Nat) := by
    exact_mod_cast (Nat.div_add_mod num den).symm
  have twice : 2 * ((num % den : Nat) : ℚ) = (2 * (num % den) : Nat) := by push_cast; rfl
  refine ⟨Nat.cast_div_le, ?_, fun low => ?_, fun high => ?_⟩
  · rw [div_lt_iff₀ pos]
    linarith
  · have low : 2 * ((num % den : Nat) : ℚ) ≤ den := twice ▸ Nat.cast_le.mpr low
    rw [← mul_div_assoc, div_le_iff₀ pos]
    linarith
  · have high : (den : ℚ) ≤ 2 * (num % den : Nat) := twice ▸ Nat.cast_le.mpr high
    rw [← mul_div_assoc, le_div_iff₀ pos]
    linarith

/-- The last multiple of `10 ^ exponent` up to a count. -/
def below (count : Nat) (exponent : Int) : Decimal :=
  ⟨count * 10 ^ (-exponent).toNat / (Quanta.one * 10 ^ exponent.toNat), exponent⟩

/-- The first one beyond it. -/
def above (count : Nat) (exponent : Int) : Decimal := ⟨(below count exponent).digits + 1, exponent⟩

section Grid

variable (count) (e : Int)

/-- A count in units of a grid. -/
theorem value_grid : ((count * 10 ^ (-e).toNat : Nat) : ℚ) / (Quanta.one * 10 ^ e.toNat : Nat) =
    Quanta.value count / 10 ^ e := by
  rw [ten_zpow_eq, Quanta.value, Nat.cast_mul, Nat.cast_mul, div_div_eq_mul_div, div_mul_eq_mul_div, div_div]

theorem value_above : (above count e).value = (below count e).value + 10 ^ e := by
  rw [above, value, Nat.cast_add, Nat.cast_one, add_mul, one_mul]
  rfl

theorem below_le_lt_above :
    (below count e).value ≤ Quanta.value count ∧ Quanta.value count < (above count e).value := by
  have positive : 0 < Quanta.one * 10 ^ e.toNat := Nat.mul_pos Quanta.one_pos (Nat.pow_pos (by decide))
  obtain ⟨low, high, -⟩ := floor_spec (count * 10 ^ (-e).toNat) positive
  rw [value_grid] at low high
  refine ⟨(le_div_iff₀ (ten_zpow_pos e)).mp low, ?_⟩
  rw [value_above]
  have scaled := (div_lt_iff₀ (ten_zpow_pos e)).mp high
  rwa [add_mul, one_mul] at scaled

/-- The neighbours are the last multiple up to a count and the first beyond it, the nearer one first. -/
theorem neighbours_cases :
    (neighbours count e = [below count e, above count e] ∧
        |(below count e).value - Quanta.value count| ≤ |(above count e).value - Quanta.value count|) ∨
      (neighbours count e = [above count e, below count e] ∧
        |(above count e).value - Quanta.value count| ≤ |(below count e).value - Quanta.value count|) := by
  have positive : 0 < Quanta.one * 10 ^ e.toNat := Nat.mul_pos Quanta.one_pos (Nat.pow_pos (by decide))
  obtain ⟨-, -, low, high⟩ := floor_spec (count * 10 ^ (-e).toNat) positive
  rw [value_grid] at low high
  obtain ⟨before, beyond⟩ := below_le_lt_above count e
  obtain ⟨onward, upTo⟩ := Quanta.abs_sub_le_iff_middle (before.trans_lt beyond) (Quanta.value count)
  have middle : (below count e).value + (above count e).value =
      (2 * ((below count e).digits : ℚ) + 1) * 10 ^ e := by
    rw [value_above, value]
    change ((below count e).digits : ℚ) * 10 ^ e + (((below count e).digits : ℚ) * 10 ^ e + 10 ^ e) = _
    ring
  rw [middle] at onward upTo
  unfold neighbours
  dsimp only
  split
  · rename_i down
    refine .inl ⟨rfl, upTo.mpr ?_⟩
    have scaled := low (by omega)
    rwa [← mul_div_assoc, div_le_iff₀ (ten_zpow_pos e)] at scaled
  · rename_i up
    refine .inr ⟨rfl, onward.mpr ?_⟩
    have scaled := high (by omega)
    rwa [← mul_div_assoc, le_div_iff₀ (ten_zpow_pos e)] at scaled

end Grid

variable {e : Int}

theorem onGrid?_eq_some (found : onGrid? count e = some d) :
    d.quanta = count ∧ (d = below count e ∨ d = above count e) := by
  refine ⟨by simpa using List.find?_some found, ?_⟩
  have member := List.mem_of_find?_eq_some found
  rcases neighbours_cases count e with ⟨same, -⟩ | ⟨same, -⟩ <;> rw [same] at member
  · simpa using member
  · simpa [or_comm] using member

/-- If one of the two neighbours reads back, the grid has a decimal that reads back and is as near. -/
theorem exists_onGrid?_of_neighbour (reads : d.quanta = count) (side : d = below count e ∨ d = above count e) :
    ∃ found, onGrid? count e = some found ∧
      |found.value - Quanta.value count| ≤ |d.value - Quanta.value count| := by
  have key (near far : Decimal) (pair : neighbours count e = [near, far])
      (order : |near.value - Quanta.value count| ≤ |far.value - Quanta.value count|)
      (either : d = near ∨ d = far) : ∃ found, onGrid? count e = some found ∧
        |found.value - Quanta.value count| ≤ |d.value - Quanta.value count| := by
    rw [onGrid?, pair]
    by_cases nearReads : near.quanta = count
    · refine ⟨near, by simp [nearReads], ?_⟩
      rcases either with rfl | rfl
      · exact le_rfl
      · exact order
    · have isFar : d = far := either.resolve_left fun same => nearReads (same ▸ reads)
      exact ⟨far, by simp [nearReads, isFar ▸ reads], isFar ▸ le_rfl⟩
  rcases neighbours_cases count e with ⟨pair, order⟩ | ⟨pair, order⟩
  · exact key _ _ pair order side
  · exact key _ _ pair order side.symm

/-- If any decimal that reads back is not between the two neighbours, one of them reads back. -/
theorem exists_onGrid?_of_outside (reads : other.quanta = count)
    (outside : other.value ≤ (below count e).value ∨ (above count e).value ≤ other.value) :
    ∃ found, onGrid? count e = some found ∧
      |found.value - Quanta.value count| ≤ |other.value - Quanta.value count| := by
  obtain ⟨before, beyond⟩ := below_le_lt_above count e
  rcases outside with lower | higher
  · obtain ⟨found, some, near⟩ := exists_onGrid?_of_neighbour
      (quanta_eq_of_between reads (.inr ⟨lower, before⟩)) (.inl rfl)
    refine ⟨found, some, near.trans ?_⟩
    rw [abs_of_nonpos (sub_nonpos.mpr before), abs_of_nonpos (sub_nonpos.mpr (lower.trans before))]
    linarith
  · obtain ⟨found, some, near⟩ := exists_onGrid?_of_neighbour
      (quanta_eq_of_between reads (.inl ⟨beyond.le, higher⟩)) (.inr rfl)
    refine ⟨found, some, near.trans ?_⟩
    rw [abs_of_pos (sub_pos.mpr beyond), abs_of_pos (sub_pos.mpr (beyond.trans_le higher))]
    linarith

/-! ## The leading digit -/

/-- The number of digits of a natural number, by powers of ten. -/
theorem length_toDigits_spec {n : Nat} (positive : 0 < n) :
    10 ^ ((Nat.toDigits 10 n).length - 1) ≤ n ∧ n < 10 ^ (Nat.toDigits 10 n).length := by
  have some : 0 < (Nat.toDigits 10 n).length := Nat.length_toDigits_pos
  refine ⟨?_, (Nat.length_toDigits_le_iff (by decide) some).mp le_rfl⟩
  rcases Nat.eq_zero_or_pos ((Nat.toDigits 10 n).length - 1) with none | more
  · rw [none]
    exact positive
  · refine Nat.not_lt.mp fun less => ?_
    have shorter := (Nat.length_toDigits_le_iff (by decide) more).mpr less
    omega

theorem one_le_ten_pow : Quanta.one ≤ 10 ^ Number.decimalReach :=
  calc Quanta.one ≤ 2 ^ (3 * Number.decimalReach) := Nat.pow_le_pow_right (by decide) (by decide)
    _ = (2 ^ 3) ^ Number.decimalReach := Nat.pow_mul _ _ _
    _ ≤ 10 ^ Number.decimalReach := Nat.pow_le_pow_left (by decide) _

/-- The power of ten of the leading digit. -/
theorem leading_spec (positive : 0 < count) :
    (10 : ℚ) ^ leading count ≤ Quanta.value count ∧ Quanta.value count < 10 ^ (leading count + 1) := by
  have some : 0 < count * 10 ^ Number.decimalReach / Quanta.one :=
    Nat.div_pos (one_le_ten_pow.trans (Nat.le_mul_of_pos_left _ positive)) Quanta.one_pos
  obtain ⟨low, high⟩ := length_toDigits_spec some
  obtain ⟨floor, ceiling, -⟩ := floor_spec (count * 10 ^ Number.decimalReach) Quanta.one_pos
  have length : 0 < (Nat.toDigits 10 (count * 10 ^ Number.decimalReach / Quanta.one)).length :=
    Nat.length_toDigits_pos
  rw [Nat.cast_mul, mul_div_right_comm, ← Quanta.value] at floor ceiling
  unfold leading
  generalize count * 10 ^ Number.decimalReach / Quanta.one = whole at low high floor ceiling length ⊢
  generalize (Nat.toDigits 10 whole).length = digits at low high length ⊢
  generalize Number.decimalReach = reach at floor ceiling ⊢
  generalize Quanta.value count = value at floor ceiling ⊢
  have scale : (0 : ℚ) < (10 ^ reach : Nat) := Nat.cast_pos.mpr (Nat.pow_pos (by decide))
  have power (n : Nat) (k : Int) (shift : k + reach = n) : (10 : ℚ) ^ k * (10 ^ reach : Nat) = (10 ^ n : Nat) := by
    rw [Nat.cast_pow, Nat.cast_pow, Nat.cast_ofNat, ← zpow_natCast, ← zpow_natCast, ← shift,
      zpow_add₀ (by norm_num)]
  constructor
  · refine le_of_mul_le_mul_right ?_ scale
    rw [power (digits - 1) _ (by omega)]
    exact (Nat.cast_le.mpr low).trans floor
  · refine lt_of_mul_lt_mul_right ?_ scale.le
    rw [power digits _ (by omega)]
    exact ceiling.trans_le (by exact_mod_cast high)

/-! ## Seventeen digits -/

/-- A decimal reads back if it is within half a step of a grid of seventeen digits: other precise counts
are more than a step away. -/
theorem quanta_eq_of_half_step (precise : Precise count) (positive : 0 < count)
    (half : 2 * |d.value - Quanta.value count| ≤ 10 ^ (leading count - 16)) : d.quanta = count := by
  refine d.rounds_quanta.unique (.of_close precise fun other preciseToo different => ?_)
  have distance : |(count : ℚ) - d.value * Quanta.one| = |d.value - Quanta.value count| * Quanta.one := by
    rw [← Quanta.value_mul_one count, ← sub_mul, abs_mul, abs_sub_comm, abs_of_pos Quanta.cast_one_pos]
  have step : (10 : ℚ) ^ leading count = 10 ^ 16 * 10 ^ (leading count - 16) := by
    rw [← zpow_natCast, ← zpow_add₀ (by norm_num)]
    congr 1
    norm_num
  have start := (leading_spec positive).1
  have apart := precise.apart preciseToo different
  rw [distance]
  rw [step] at start
  have bound := mul_le_mul_of_nonneg_right start Quanta.cast_one_pos.le
  rw [Quanta.value_mul_one] at bound
  have half := mul_le_mul_of_nonneg_right half Quanta.cast_one_pos.le
  linarith

/-- On a grid of seventeen digits the nearer neighbour reads back. -/
theorem exists_onGrid?_seventeen (precise : Precise count) (positive : 0 < count) :
    ∃ found, onGrid? count (leading count - 16) = some found := by
  obtain ⟨before, beyond⟩ := below_le_lt_above count (leading count - 16)
  have step := value_above count (leading count - 16)
  have low := abs_of_nonpos (sub_nonpos.mpr before)
  have high := abs_of_pos (sub_pos.mpr beyond)
  rcases neighbours_cases count (leading count - 16) with ⟨-, nearer⟩ | ⟨-, nearer⟩
  · have reads := quanta_eq_of_half_step precise positive (d := below count (leading count - 16)) (by linarith)
    obtain ⟨found, some, -⟩ := exists_onGrid?_of_neighbour reads (.inl rfl)
    exact ⟨found, some⟩
  · have reads := quanta_eq_of_half_step precise positive (d := above count (leading count - 16)) (by linarith)
    obtain ⟨found, some, -⟩ := exists_onGrid?_of_neighbour reads (.inr rfl)
    exact ⟨found, some⟩

theorem exists_of_findSome?_range {α : Type} {f : Nat → Option α} {n : Nat} {found : α}
    (some : (List.range n).findSome? f = some found) : ∃ i < n, f i = .some found ∧ ∀ j < i, f j = none := by
  induction n with
  | zero => cases some
  | succ n ih =>
      rw [List.range_succ, List.findSome?_append] at some
      cases first : (List.range n).findSome? f with
      | some other =>
          rw [first, Option.some_or] at some
          obtain ⟨i, less, here, before⟩ := ih (first.trans some)
          exact ⟨i, Nat.lt_succ_of_lt less, here, before⟩
      | none =>
          rw [first, Option.none_or] at some
          have none := List.findSome?_eq_none_iff.mp first
          exact ⟨n, Nat.lt_succ_self n, by simpa using some, fun j less => none j (List.mem_range.mpr less)⟩

/-- The shortest decimal is found on the first grid that has one, and that is among the first seventeen. -/
theorem exists_grid_shortest (precise : Precise count) (positive : 0 < count) :
    ∃ more < 17, onGrid? count (leading count - (more : Nat)) = some (shortest count) ∧
      ∀ fewer < more, onGrid? count (leading count - (fewer : Nat)) = none := by
  have some : ((List.range 17).findSome? fun (more : Nat) => onGrid? count (leading count - more)).isSome := by
    obtain ⟨found, last⟩ := exists_onGrid?_seventeen precise positive
    exact List.findSome?_isSome_iff.mpr ⟨16, by decide, by simp [last]⟩
  obtain ⟨found, first⟩ := Option.isSome_iff_exists.mp some
  have same : shortest count = found := by
    simp only [shortest, first, Option.getD_some]
  rw [same]
  exact exists_of_findSome?_range first

/-! ## Figures -/

/-- The digits of a decimal without the zeros at its end. -/
def figures (d : Decimal) : List Char := ((Nat.toDigits 10 d.digits).reverse.dropWhile (· = '0')).reverse

/-- The digits are the figures and zeros. -/
theorem toDigits_eq_figures (d : Decimal) : Nat.toDigits 10 d.digits = d.figures ++
    List.replicate ((Nat.toDigits 10 d.digits).length - d.figures.length) '0' := by
  have split := List.takeWhile_append_dropWhile (p := (· = '0')) (l := (Nat.toDigits 10 d.digits).reverse)
  have whole := congrArg List.reverse split
  rw [List.reverse_append, List.reverse_reverse] at whole
  have zeros : ((Nat.toDigits 10 d.digits).reverse.takeWhile (· = '0')).reverse =
      List.replicate ((Nat.toDigits 10 d.digits).length - d.figures.length) '0' := by
    refine List.eq_replicate_iff.mpr ⟨?_, fun c member => ?_⟩
    · have length := congrArg List.length whole
      rw [List.length_append] at length
      unfold figures
      omega
    · simpa using List.all_eq_true.mp List.all_takeWhile c (List.mem_reverse.mp member)
  rw [← zeros]
  exact whole.symm

theorem toDigits_mul_ten_pow {n : Nat} (positive : 0 < n) (zeros : Nat) :
    Nat.toDigits 10 (n * 10 ^ zeros) = Nat.toDigits 10 n ++ List.replicate zeros '0' := by
  induction zeros with
  | zero => simp
  | succ zeros ih =>
      have more := Nat.toDigits_append_toDigits (by decide : 1 < 10)
        (Nat.mul_pos positive (Nat.pow_pos (by decide : 0 < 10)) : 0 < n * 10 ^ zeros) (by decide : 0 < 10)
      rw [Nat.add_zero, Nat.toDigits_zero, ih] at more
      rw [Nat.pow_succ, ← Nat.mul_assoc, Nat.mul_comm _ 10, ← more, List.append_assoc, ← List.replicate_succ']

/-- A decimal has no more figures than a number has digits that it is a multiple of, by a power of ten. -/
theorem length_figures_le {n k : Nat} (zeros : Nat) (same : d.digits = n * 10 ^ zeros) (positive : 0 < n)
    (digit : 0 < k) (small : n < 10 ^ k) : d.figures.length ≤ k := by
  have reversed : ((Nat.toDigits 10 d.digits).reverse.dropWhile (· = '0')) =
      (Nat.toDigits 10 n).reverse.dropWhile (· = '0') := by
    rw [same, toDigits_mul_ten_pow positive, List.reverse_append, List.reverse_replicate,
      List.dropWhile_append_of_pos (by simp)]
  rw [figures, List.length_reverse, reversed]
  calc ((Nat.toDigits 10 n).reverse.dropWhile (· = '0')).length
      ≤ (Nat.toDigits 10 n).reverse.length := (List.dropWhile_sublist _).length_le
    _ = (Nat.toDigits 10 n).length := List.length_reverse
    _ ≤ k := (Nat.length_toDigits_le_iff (by decide) digit).mpr small

/-- The digits are the number that the figures spell, times a power of ten. -/
theorem digits_eq_figures (d : Decimal) : d.digits = Nat.ofDigitChars 10 d.figures 0 *
    10 ^ ((Nat.toDigits 10 d.digits).length - d.figures.length) := by
  have spelled := Nat.ofDigitChars_ten_toDigits (n := d.digits)
  rw [toDigits_eq_figures, Nat.ofDigitChars_append, Nat.ofDigitChars_replicate_zero] at spelled
  rw [Nat.mul_comm]
  exact spelled.symm

theorem value_eq_figures (d : Decimal) : d.value = Nat.ofDigitChars 10 d.figures 0 *
    (10 : ℚ) ^ (((Nat.toDigits 10 d.digits).length - d.figures.length : Nat) + d.exponent) := by
  have spelled := d.digits_eq_figures
  generalize (Nat.toDigits 10 d.digits).length - d.figures.length = zeros at spelled ⊢
  rw [value, spelled, Nat.cast_mul, Nat.cast_pow, Nat.cast_ofNat, ← zpow_natCast, mul_assoc,
    ← zpow_add₀ (by norm_num)]

theorem length_figures_le_toDigits (d : Decimal) : d.figures.length ≤ (Nat.toDigits 10 d.digits).length := by
  have length := congrArg List.length d.toDigits_eq_figures
  rw [List.length_append] at length
  omega

/-- The number that the figures of a decimal other than zero spell has no more digits than there are figures. -/
theorem figures_spec (positive : 0 < d.digits) : 0 < d.figures.length ∧ 0 < Nat.ofDigitChars 10 d.figures 0 ∧
    Nat.ofDigitChars 10 d.figures 0 < 10 ^ d.figures.length := by
  have small := (length_toDigits_spec positive).2
  have fits := d.length_figures_le_toDigits
  have spelled := d.digits_eq_figures
  have some : 0 < Nat.ofDigitChars 10 d.figures 0 := Nat.pos_of_mul_pos_right (spelled ▸ positive)
  have less : Nat.ofDigitChars 10 d.figures 0 < 10 ^ d.figures.length := by
    refine Nat.lt_of_mul_lt_mul_right (a := 10 ^ ((Nat.toDigits 10 d.digits).length - d.figures.length)) ?_
    rwa [← spelled, ← Nat.pow_add, Nat.add_sub_cancel' fits]
  refine ⟨Nat.pos_of_ne_zero fun none => ?_, some, less⟩
  rw [none] at less
  omega

/-! ## Shortness -/

/-- A decimal that is as short as any that reads back as a count, and as near as any so short. -/
structure IsShortest (count : Nat) (d : Decimal) : Prop where
  reads : d.quanta = count
  fewest : ∀ other : Decimal, other.quanta = count → d.figures.length ≤ other.figures.length
  nearest : ∀ other : Decimal, other.quanta = count → other.figures.length = d.figures.length →
    |d.value - Quanta.value count| ≤ |other.value - Quanta.value count|

theorem digits_pos (reads : d.quanta = count) (positive : 0 < count) : 0 < d.digits := by
  refine Nat.pos_of_ne_zero fun zero => ?_
  have value : d.value * Quanta.one = (0 : Nat) := by
    rw [Decimal.value, zero, Nat.cast_zero, zero_mul, zero_mul]
  have none := (value ▸ d.rounds_quanta).unique (.self (dvd_zero _))
  omega

/-- No multiple of a grid lies between the neighbours of a count. -/
theorem multiple_outside (count : Nat) (e : Int) (multiple : Nat) :
    multiple * (10 : ℚ) ^ e ≤ (below count e).value ∨ (above count e).value ≤ multiple * (10 : ℚ) ^ e := by
  have scale := (ten_zpow_pos e).le
  rcases Nat.lt_or_ge (below count e).digits multiple with less | more
  · exact .inr (mul_le_mul_of_nonneg_right (Nat.cast_le.mpr less) scale)
  · exact .inl (mul_le_mul_of_nonneg_right (Nat.cast_le.mpr more) scale)

/-- A power of ten is a multiple of every lesser one. -/
theorem ten_zpow_eq_mul (e coarse : Int) (le : e ≤ coarse) :
    (10 : ℚ) ^ coarse = (10 ^ (coarse - e).toNat : Nat) * 10 ^ e := by
  rw [Nat.cast_pow, Nat.cast_ofNat, ← zpow_natCast, Int.toNat_of_nonneg (by omega), ← zpow_add₀ (by norm_num)]
  congr 1
  omega

/-- A decimal other than zero lies outside the neighbours of a count on the grid that has as many digits. -/
theorem figures_outside (positive : 0 < count) (some : 0 < d.digits) :
    d.value ≤ (below count (leading count - (d.figures.length - 1 : Nat))).value ∨
      (above count (leading count - (d.figures.length - 1 : Nat))).value ≤ d.value := by
  obtain ⟨length, -, small⟩ := figures_spec some
  have value := d.value_eq_figures
  generalize Nat.ofDigitChars 10 d.figures 0 = n at small value
  generalize (Nat.toDigits 10 d.digits).length - d.figures.length = zeros at value
  generalize fine : leading count - (d.figures.length - 1 : Nat) = e
  rcases le_or_gt e (zeros + d.exponent) with coarse | finer
  · -- The decimal is on the grid.
    rw [value, ten_zpow_eq_mul _ _ coarse, ← mul_assoc, ← Nat.cast_mul]
    exact multiple_outside count e _
  · -- It is below the leading power of ten, which is on the grid and not beyond the count.
    refine .inl ?_
    have leads := (leading_spec positive).1
    have beyond := (below_le_lt_above count e).2
    have less : d.value ≤ 10 ^ leading count := by
      have last : (zeros + d.exponent) + (d.figures.length : Int) ≤ leading count := by omega
      rw [value]
      calc (n : ℚ) * 10 ^ (zeros + d.exponent)
          ≤ (10 : ℚ) ^ (d.figures.length : Int) * 10 ^ (zeros + d.exponent) :=
            mul_le_mul_of_nonneg_right (by exact_mod_cast small.le) (ten_zpow_pos _).le
        _ = 10 ^ (zeros + d.exponent + (d.figures.length : Int)) := by
            rw [← zpow_add₀ (by norm_num), add_comm]
        _ ≤ 10 ^ leading count := zpow_le_zpow_right₀ (by norm_num) last
    have aligned := ten_zpow_eq_mul e (leading count) (by omega)
    rcases multiple_outside count e (10 ^ (leading count - e).toNat) with before | after
    · exact less.trans (aligned ▸ before)
    · exact absurd (aligned ▸ after) (not_le.mpr (leads.trans_lt beyond))

/-- A neighbour on a grid has no more figures than the grid has digits. -/
theorem length_figures_le_of_grid {more : Nat} (positive : 0 < count) (some : 0 < d.digits)
    (side : d = below count (leading count - more) ∨ d = above count (leading count - more)) :
    d.figures.length ≤ more + 1 := by
  have low : (below count (leading count - more)).digits < 10 ^ (more + 1) := by
    have before := (below_le_lt_above count (leading count - more)).1
    have power := ten_zpow_eq_mul (leading count - more) (leading count + 1) (by omega)
    have scaled := before.trans_lt (power ▸ (leading_spec positive).2)
    have less := lt_of_mul_lt_mul_right scaled (ten_zpow_pos _).le
    have digits : (leading count + 1 - (leading count - more)).toNat = more + 1 := by omega
    rw [digits] at less
    exact_mod_cast less
  have bound : d.digits ≤ 10 ^ (more + 1) := by
    rcases side with rfl | rfl
    · exact low.le
    · exact low
  rcases bound.lt_or_eq with less | round
  · exact length_figures_le 0 (by simp) some (Nat.succ_pos more) less
  · exact length_figures_le (n := 1) _ (by simpa using round) Nat.one_pos (Nat.succ_pos more)
      (Nat.one_lt_pow (Nat.succ_ne_zero more) (by decide))

/-- The decimal that is found is a shortest one. -/
theorem isShortest_shortest (precise : Precise count) (positive : 0 < count) :
    IsShortest count (shortest count) := by
  obtain ⟨more, -, here, before⟩ := exists_grid_shortest precise positive
  obtain ⟨reads, side⟩ := onGrid?_eq_some here
  have few := length_figures_le_of_grid positive (digits_pos reads positive) side
  -- A decimal that reads back puts one on the grid of its length, so that grid is not before the first.
  have found (other : Decimal) (readsToo : other.quanta = count) : more ≤ other.figures.length - 1 ∧
      ∃ near, onGrid? count (leading count - (other.figures.length - 1 : Nat)) = some near ∧
        |near.value - Quanta.value count| ≤ |other.value - Quanta.value count| := by
    obtain ⟨near, on, nearer⟩ := exists_onGrid?_of_outside readsToo
      (figures_outside positive (digits_pos readsToo positive))
    refine ⟨Nat.not_lt.mp fun less => ?_, near, on, nearer⟩
    rw [before _ less] at on
    cases on
  refine ⟨reads, fun other readsToo => ?_, fun other readsToo same => ?_⟩
  · have length := (figures_spec (digits_pos readsToo positive)).1
    have grid := (found other readsToo).1
    omega
  · obtain ⟨grid, near, on, nearer⟩ := found other readsToo
    have same : other.figures.length - 1 = more := by omega
    rw [same, here] at on
    rw [Option.some.inj on]
    exact nearer

end Decimal

end Treewalk

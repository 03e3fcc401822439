import Treewalk.Number.Layout
import Treewalk.Proofs.Number.Shortest
import Treewalk.Proofs.Source.Tokens

/-!
# Printed numbers

A number is printed as a numeral: the digits of an integer, or the figures of its shortest decimal around a
point. `Text.Spells` says which decimal a numeral spells. What is printed, a sign aside, spells a decimal that
reads back as the number (`Number.exists_spells_text`), and so the number is what it is read as
(`Text.Spells.ofText?_eq`). Only numbers between zero and a ten-thousandth, the integers aside, are printed with
a power of ten: the shortest decimal of any other has its leading digit where it needs none
(`Decimal.shortest_within_layout`).
-/

namespace Treewalk

open Quanta (Precise)

/-! ## Numerals and their decimals -/

namespace Text

/-- A numeral in ASCII digits, and the decimal that it spells. -/
inductive Spells : List Char → Decimal → Prop where
  | whole {digits : List Char} : digits ≠ [] → (∀ c ∈ digits, c.isDigit) →
      Spells digits ⟨Nat.ofDigitChars 10 digits 0, 0⟩
  | point {whole fraction : List Char} : whole ≠ [] → fraction ≠ [] → (∀ c ∈ whole ++ fraction, c.isDigit) →
      Spells (whole ++ '.' :: fraction) ⟨Nat.ofDigitChars 10 (whole ++ fraction) 0, -fraction.length⟩

theorem digit?_of_isDigit {c : Char} (digit : c.isDigit) : digit? c = some (c.toNat - '0'.toNat) := by
  obtain ⟨low, high⟩ := Char.isDigit_iff_toNat.mp digit
  have first : (decide (0x30 ≤ c.toNat) && decide (c.toNat < 0x30 + 10)) = true := by
    change 48 ≤ c.toNat at low
    change c.toNat ≤ 57 at high
    simp
    omega
  rw [digit?, zeros, List.find?_cons_of_pos (by exact first)]
  rfl

theorem isDigit_of_ascii {c : Char} (digit : c.isDigit) : isDigit c := by
  rw [isDigit, digit?_of_isDigit digit]
  rfl

/-- The value of a row of ASCII digits. -/
theorem digitsValue_eq {cs : List Char} (digits : ∀ c ∈ cs, c.isDigit) :
    digitsValue cs = Nat.ofDigitChars 10 cs 0 := by
  rw [digitsValue, List.foldl_filterMap, Nat.ofDigitChars_eq_foldl]
  refine List.foldl_ext _ _ _ fun value c member => ?_
  rw [digit?_of_isDigit (digits c member)]

namespace Spells

variable {cs : List Char} {d : Decimal}

theorem isNumeral (spells : Spells cs d) : IsNumeral cs := by
  cases spells with
  | whole some digits =>
      exact ⟨cs, [], (List.append_nil cs).symm, some, fun c member => isDigit_of_ascii (digits c member), .inl rfl⟩
  | @point whole fraction some _ digits =>
      refine ⟨whole, '.' :: fraction, rfl, some, fun c member => ?_, .inr ⟨fraction, rfl, fun c member => ?_⟩⟩
      · exact isDigit_of_ascii (digits c (List.mem_append_left _ member))
      · exact isDigit_of_ascii (digits c (List.mem_append_right _ member))

theorem mem (spells : Spells cs d) {c : Char} (member : c ∈ cs) : c.isDigit ∨ c = '.' := by
  cases spells with
  | whole _ digits => exact .inl (digits c member)
  | point _ _ digits =>
      rcases List.mem_append.mp member with inside | inside
      · exact .inl (digits c (List.mem_append_left _ inside))
      rcases List.mem_cons.mp inside with same | inside
      · exact .inr same
      · exact .inl (digits c (List.mem_append_right _ inside))

/-- A numeral is not the name of a special number. -/
theorem toLower_ne (spells : Spells cs d) {name : String} (special : name ∈ ["inf", "infinity", "nan"]) :
    String.ofList (cs.map Char.toLower) ≠ name := by
  intro same
  have lower (c : Char) (member : c ∈ cs) : c.toLower ≠ 'n' := by
    have small : c.toNat ≤ 57 := by
      rcases spells.mem member with digit | rfl
      · exact (Char.isDigit_iff_toNat.mp digit).2
      · decide
    have kept : c.toLower = c := by
      refine Char.toLower_eq_of_not_isUpper fun upper => ?_
      simp only [Char.isUpper, decide_eq_true_eq] at upper
      exact absurd (small.trans_lt (by decide)) (not_lt.mpr (UInt32.le_iff_toNat_le.mp upper.1))
    rw [kept]
    rintro rfl
    exact absurd small (by decide)
  have chars : cs.map Char.toLower = name.toList := by rw [← same, String.toList_ofList]
  have named : 'n' ∈ name.toList := by
    simp only [List.mem_cons, List.not_mem_nil, or_false] at special
    rcases special with rfl | rfl | rfl <;> decide
  rw [← chars] at named
  obtain ⟨c, member, isN⟩ := List.mem_map.mp named
  exact lower c member isN

/-- A numeral is read as the number nearest to its decimal. -/
theorem ofText?_eq (spells : Spells cs d) : Number.ofText? (String.ofList cs) = some (.ofDecimal false d) := by
  have plain : Number.ofPlain? false cs = some (.ofDecimal false d) := by
    cases spells with
    | whole some digits =>
        rw [Number.ofPlain?_digits false some fun c member => isDigit_of_ascii (digits c member),
          digitsValue_eq digits]
    | point some _ digits =>
        rw [Number.ofPlain?_point false some
          (fun c member => isDigit_of_ascii (digits c (List.mem_append_left _ member)))
          fun c member => isDigit_of_ascii (digits c (List.mem_append_right _ member)), digitsValue_eq digits]
  unfold Number.ofText?
  rw [bareNumeral?_of_isNumeral spells.isNumeral]
  simp only [splitSign_of_isNumeral spells.isNumeral]
  rw [if_neg (not_or.mpr ⟨spells.toLower_ne (by simp), spells.toLower_ne (by simp)⟩),
    if_neg (spells.toLower_ne (by simp)), plain]

end Spells

end Text

/-! ## The shortest decimal -/

/-- A count that is not of whole ones is below `2⁵²` of them. -/
theorem Quanta.Precise.lt_of_not_whole (precise : Precise count) (fractional : ¬Quanta.one ∣ count) :
    count < 2 ^ 52 * Quanta.one := by
  rw [Quanta.one] at fractional ⊢
  generalize Quanta.depth = depth at fractional ⊢
  have place : Quanta.place (2 ^ 52 * 2 ^ depth) = depth := Quanta.place_mul (by decide) (.inr le_rfl)
  have unaligned : ¬2 ^ Quanta.place (2 ^ 52 * 2 ^ depth) ∣ count := by rwa [place]
  have less := (precise.lt_of_not_dvd unaligned).1
  rwa [place] at less

namespace Decimal

variable {count : Nat} {d : Decimal}

theorem isDigit_of_mem_figures (d : Decimal) : ∀ c ∈ d.figures, c.isDigit := by
  intro c member
  have inside : c ∈ Nat.toDigits 10 d.digits := by
    rw [toDigits_eq_figures]
    exact List.mem_append_left _ member
  exact Nat.isDigit_of_mem_toDigits (by decide) (by decide) inside

/-- The power of ten of the leading digit of a decimal. -/
theorem leadingDigit_spec (d : Decimal) (positive : 0 < d.digits) :
    (10 : ℚ) ^ (d.exponent + (Nat.toDigits 10 d.digits).length - 1) ≤ d.value ∧
      d.value < 10 ^ (d.exponent + (Nat.toDigits 10 d.digits).length) := by
  obtain ⟨least, less⟩ := length_toDigits_spec positive
  have some : 0 < (Nat.toDigits 10 d.digits).length := Nat.length_toDigits_pos
  generalize (Nat.toDigits 10 d.digits).length = length at least less some ⊢
  have power (n : Nat) : (10 : ℚ) ^ (d.exponent + n) = (10 ^ n : Nat) * 10 ^ d.exponent := by
    rw [ten_zpow_eq_mul d.exponent (d.exponent + n) (by omega)]
    congr 4
    omega
  constructor
  · have shift : d.exponent + length - 1 = d.exponent + (length - 1 : Nat) := by omega
    rw [shift, power]
    exact mul_le_mul_of_nonneg_right (Nat.cast_le.mpr least) (ten_zpow_pos _).le
  · rw [power]
    exact mul_lt_mul_of_pos_right (Nat.cast_lt.mpr less) (ten_zpow_pos _)

/-- A decimal that has the value of a precise count reads back as it. -/
theorem quanta_eq_of_value (precise : Precise count) (same : d.value = Quanta.value count) : d.quanta = count := by
  have rounds := d.rounds_quanta
  rw [same, Quanta.value_mul_one] at rounds
  exact rounds.unique (.self precise)

/-- The shortest decimal of a count that is not of whole ones and not below a ten-thousandth has its leading
digit where it is written without a power of ten. -/
theorem shortest_within_layout (precise : Precise count) (fractional : ¬Quanta.one ∣ count)
    (low : (10 : ℚ) ^ Number.layout.least ≤ Quanta.value count) :
    (10 : ℚ) ^ Number.layout.least ≤ (shortest count).value ∧
      (shortest count).value < 10 ^ (Number.layout.greatest + 1) := by
  have positive : 0 < count := Nat.pos_of_ne_zero fun zero => fractional (zero ▸ dvd_zero _)
  have found := isShortest_shortest precise positive
  constructor
  · -- Otherwise the ten-thousandth itself would read back, be as short and be nearer.
    refine not_lt.mp fun less => ?_
    have power : value ⟨1, Number.layout.least⟩ = (10 : ℚ) ^ Number.layout.least := by
      rw [value, Nat.cast_one, one_mul]
    have reads : quanta ⟨1, Number.layout.least⟩ = count := by
      refine quanta_eq_of_between found.reads (.inr ?_)
      rw [power]
      exact ⟨less.le, low⟩
    have few := found.fewest _ reads
    have some := (figures_spec (digits_pos found.reads positive)).1
    have one : (figures ⟨1, Number.layout.least⟩).length = 1 := by decide
    have near := found.nearest _ reads (by omega)
    rw [power, abs_of_nonpos (sub_nonpos.mpr (less.le.trans low)), abs_of_nonpos (sub_nonpos.mpr low)] at near
    linarith
  · -- Otherwise `2⁵³` would read back as the count, and it is a count of its own.
    refine not_le.mp fun beyond => ?_
    have whole : value ⟨2 ^ 53, 0⟩ = Quanta.value (2 ^ 53 * Quanta.one) := by
      rw [value, Quanta.value, Nat.cast_mul, mul_div_cancel_right₀ _ Quanta.cast_one_pos.ne', zpow_zero, mul_one]
    have less := precise.lt_of_not_whole fractional
    have small : Quanta.value count ≤ value ⟨2 ^ 53, 0⟩ := by
      rw [whole, Quanta.value, Quanta.value]
      refine div_le_div_of_nonneg_right (Nat.cast_le.mpr (less.le.trans ?_)) Quanta.cast_one_pos.le
      exact Nat.mul_le_mul_right _ (by decide)
    have large : value ⟨2 ^ 53, 0⟩ ≤ (shortest count).value := by
      refine le_trans ?_ beyond
      change ((2 ^ 53 : Nat) : ℚ) * 10 ^ (0 : Int) ≤ 10 ^ (15 + 1 : Int)
      norm_num
    have reads := quanta_eq_of_between found.reads (.inl ⟨small, large⟩)
    have own : quanta ⟨2 ^ 53, 0⟩ = 2 ^ 53 * Quanta.one :=
      quanta_eq_of_value (Quanta.representable_mul_one le_rfl).1 whole
    have more : 2 ^ 52 * Quanta.one ≤ 2 ^ 53 * Quanta.one := Nat.mul_le_mul_right _ (by decide)
    exact absurd (less.trans_le more) (own.symm.trans reads).not_gt

end Decimal

/-! ## Digits around a point -/

namespace Layout

theorem isDigit_of_mem_zeros {n : Nat} {c : Char} (member : c ∈ List.replicate n '0') : c.isDigit := by
  rw [List.eq_of_mem_replicate member]
  rfl

/-- Digits around a point spell the number that they spell alone, times a power of ten. -/
theorem exists_spells_positional {digits : List Char} (some : digits ≠ []) (all : ∀ c ∈ digits, c.isDigit)
    (before : Int) : ∃ d, Text.Spells (positional digits before) d ∧
      d.value = Nat.ofDigitChars 10 digits 0 * (10 : ℚ) ^ (before - digits.length) := by
  unfold positional
  split
  · -- Zeros in front of the digits do not count.
    have row : ∀ c ∈ ['0'] ++ (List.replicate (-before).toNat '0' ++ digits), c.isDigit := by
      intro c member
      rcases List.mem_append.mp member with zero | rest
      · exact isDigit_of_mem_zeros (n := 1) zero
      · exact (List.mem_append.mp rest).elim isDigit_of_mem_zeros (all c)
    refine ⟨_, .point (by simp) (by simp [some]) row, ?_⟩
    rw [Decimal.value, Nat.ofDigitChars_append, Nat.ofDigitChars_append, Nat.ofDigitChars_replicate_zero]
    congr 2
    rw [List.length_append, List.length_replicate]
    dsimp only
    omega
  split
  · -- Zeros behind them do, and the last of them stands behind the point.
    rename_i fits
    have row : ∀ c ∈ digits ++ List.replicate (before.toNat - digits.length) '0' ++ ['0'], c.isDigit := by
      intro c member
      rcases List.mem_append.mp member with rest | zero
      · exact (List.mem_append.mp rest).elim (all c) isDigit_of_mem_zeros
      · exact isDigit_of_mem_zeros (n := 1) zero
    refine ⟨_, .point (by simp [some]) (by simp) row, ?_⟩
    have shift : before - digits.length = (before.toNat - digits.length : Nat) := by omega
    have last (n : Nat) : Nat.ofDigitChars 10 ['0'] n = 10 ^ 1 * n := Nat.ofDigitChars_replicate_zero (n := 1)
    rw [Decimal.value, Nat.ofDigitChars_append, Nat.ofDigitChars_append, Nat.ofDigitChars_replicate_zero, last,
      shift, zpow_natCast]
    simp only [List.length_singleton, Nat.cast_mul, Nat.cast_pow, Nat.cast_ofNat, Nat.cast_one, zpow_neg,
      zpow_one, pow_one]
    ring
  · rename_i fits
    have row : ∀ c ∈ digits.take before.toNat ++ digits.drop before.toNat, c.isDigit := by
      rwa [List.take_append_drop]
    refine ⟨_, .point ?_ ?_ row, ?_⟩
    · rw [Ne, List.take_eq_nil_iff]
      exact not_or.mpr ⟨by omega, some⟩
    · rw [Ne, List.drop_eq_nil_iff]
      exact fits
    · rw [Decimal.value, List.take_append_drop, List.length_drop]
      congr 2
      dsimp only
      omega

/-- A decimal whose leading digit stands where a layout needs no power of ten is written without one, and what
is written spells its value. -/
theorem exists_spells_write (layout : Layout) {d : Decimal} (positive : 0 < d.digits)
    (low : (10 : ℚ) ^ layout.least ≤ d.value) (high : d.value < 10 ^ (layout.greatest + 1)) :
    ∃ e, Text.Spells (layout.write d) e ∧ e.value = d.value := by
  obtain ⟨least, less⟩ := d.leadingDigit_spec positive
  have within : layout.least ≤ d.exponent + (Nat.toDigits 10 d.digits).length - 1 ∧
      d.exponent + (Nat.toDigits 10 d.digits).length - 1 ≤ layout.greatest := by
    have first := (zpow_lt_zpow_iff_right₀ (by norm_num)).mp (low.trans_lt less)
    have last := (zpow_lt_zpow_iff_right₀ (by norm_num)).mp (least.trans_lt high)
    omega
  have written : layout.write d =
      positional d.figures (d.exponent + (Nat.toDigits 10 d.digits).length - 1 + 1) := if_pos within
  have some : d.figures ≠ [] := List.ne_nil_of_length_pos (Decimal.figures_spec positive).1
  obtain ⟨e, spells, value⟩ := exists_spells_positional some d.isDigit_of_mem_figures
    (d.exponent + (Nat.toDigits 10 d.digits).length - 1 + 1)
  have fits := d.length_figures_le_toDigits
  refine ⟨e, written ▸ spells, ?_⟩
  rw [value, d.value_eq_figures]
  congr 2
  omega

end Layout

/-! ## Numbers -/

namespace Number

variable {negative : Bool} {count : Nat}

/-- A decimal that reads back as a count is read as the number of that count. -/
theorem ofDecimal_eq (negative : Bool) {d : Decimal} (reads : d.quanta = count) (valid : Representable count) :
    ofDecimal negative d = .finite negative count valid := by
  have same : Quanta.nearest (d.num * Quanta.one) d.den = count := reads
  unfold ofDecimal round
  rw [dif_pos (by rw [same]; exact valid.2)]
  congr

theorem natAbs_signed (negative : Bool) (n : Nat) : (signed negative n).natAbs = n := by
  cases negative <;> simp [signed]

theorem signed_neg_iff : signed negative count < 0 ↔ (negative && decide (0 < count)) = true := by
  cases negative <;> simp [signed]

/-- The digits of a natural number spell it. -/
theorem spells_toDigits (n : Nat) : Text.Spells (Nat.toDigits 10 n) ⟨n, 0⟩ := by
  have spells := Text.Spells.whole Nat.toDigits_ne_nil fun c (member : c ∈ Nat.toDigits 10 n) =>
    Nat.isDigit_of_mem_toDigits (by decide) (by decide) member
  rwa [Nat.ofDigitChars_ten_toDigits] at spells

/-- A number that is whole is printed with its digits. -/
theorem text_of_whole (valid : Representable count) (whole : Quanta.one ∣ count) :
    (finite negative count valid).text =
      withSign (negative && decide (0 < count)) (Nat.toDigits 10 (count / Quanta.one)) := by
  have sign : (0 < count / Quanta.one) = (0 < count) := by
    rw [eq_iff_iff, Nat.div_pos_iff]
    exact ⟨fun one => Quanta.one_pos.trans_le one.2, fun some => ⟨Quanta.one_pos, Nat.le_of_dvd some whole⟩⟩
  have integer : (finite negative count valid).toInt? = some (signed negative (count / Quanta.one)) :=
    if_pos (Nat.mod_eq_zero_of_dvd whole)
  simp only [text, integer, natAbs_signed, signed_neg_iff, sign, Bool.decide_eq_true]

/-- Any other is printed with a point or a power of ten. -/
theorem text_of_not_whole (valid : Representable count) (fractional : ¬Quanta.one ∣ count) :
    (finite negative count valid).text =
      withSign (negative && decide (0 < count)) (layout.write (Decimal.shortest count)) := by
  have some : count ≠ 0 := fun zero => fractional (zero ▸ dvd_zero _)
  have integer : (finite negative count valid).toInt? = none :=
    if_neg fun whole => fractional (Nat.dvd_of_mod_eq_zero whole)
  simp only [text, integer, decimalText, if_neg some, Nat.pos_of_ne_zero some, decide_true, Bool.and_true]

/-- A number that is whole or not below a ten-thousandth is printed as a sign, if it is negative, and a numeral
that reads back as it. -/
theorem exists_spells_text (negative : Bool) (valid : Representable count)
    (plain : Quanta.one ∣ count ∨ (10 : ℚ) ^ layout.least ≤ Quanta.value count) :
    ∃ cs d, (finite negative count valid).text = withSign (negative && decide (0 < count)) cs ∧
      Text.Spells cs d ∧ d.quanta = count := by
  by_cases whole : Quanta.one ∣ count
  · refine ⟨_, _, text_of_whole valid whole, spells_toDigits _, ?_⟩
    refine Decimal.quanta_eq_of_value valid.1 ?_
    rw [Decimal.value, Quanta.value, zpow_zero, mul_one, Nat.cast_div whole Quanta.cast_one_pos.ne']
  · have low := plain.resolve_left whole
    have positive : 0 < count := Nat.pos_of_ne_zero fun zero => whole (zero ▸ dvd_zero _)
    have reads := (Decimal.isShortest_shortest valid.1 positive).reads
    obtain ⟨least, less⟩ := Decimal.shortest_within_layout valid.1 whole low
    obtain ⟨d, spells, value⟩ :=
      layout.exists_spells_write (Decimal.digits_pos reads positive) least less
    exact ⟨_, d, text_of_not_whole valid whole, spells, (Decimal.quanta_congr value).trans reads⟩

end Number

end Treewalk

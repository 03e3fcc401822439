/-!
# Numbers

The numbers of the language are the IEEE 754 binary64 numbers. Every finite one is a whole multiple of
the *quantum* `2⁻¹⁰⁷⁴`, so a finite number is a sign and a count of quanta, and all its arithmetic is
exact arithmetic on counts followed by one rounding.

* `Number` has a constructor for each class. A not-a-number carries a payload that tells which
  operation made it: two of them are the same value only if their payloads agree.
* `Representable` says which counts of quanta have a 53-bit significand.
* `Number.round` takes an exact quotient of quanta to the nearest number, a tie going to the even
  significand, and overflows to an infinity.
-/

namespace Treewalk

/-- Powers of natural numbers are the core ones, whatever other instances of `^` are in scope. -/
@[default_instance 20000]
instance (priority := 20000) natPow : Pow Nat Nat := instPowNat

namespace Quanta

/-- The quantum is this negative power of two. -/
def depth : Nat := 1074

/-- Every number is below this power of two. -/
def height : Nat := 1024

/-- The quanta in one. -/
def one : Nat := 2 ^ depth

/-- The least count that is too large for a number. -/
def bound : Nat := 2 ^ (depth + height)

theorem one_pos : 0 < one := Nat.two_pow_pos depth

theorem bound_pos : 0 < bound := Nat.two_pow_pos (depth + height)

/-- The weight, as a power of two, of the last significand bit of a number near `count`. -/
def place (count : Nat) : Nat := count.log2 - 52

/-- The quotient of two naturals, rounded to the nearest; a half goes to the even neighbour. -/
def divideToEven (num den : Nat) : Nat :=
  let floor := num / den
  let twice := 2 * (num % den)
  if twice < den ∨ (twice = den ∧ floor % 2 = 0) then floor else floor + 1

/-- The count nearest to the quotient of `num` and `den` among those of 53 significand bits. -/
def nearest (num den : Nat) : Nat :=
  let unit := 2 ^ place (num / den)
  divideToEven num (den * unit) * unit

theorem divideToEven_le (num den : Nat) : divideToEven num den ≤ num / den + 1 := by
  unfold divideToEven
  dsimp only
  split <;> omega

/-- A count has at most 53 bits at and above its last place. -/
theorem div_place_lt (count : Nat) : count / 2 ^ place count < 2 ^ 53 := by
  rw [Nat.div_lt_iff_lt_mul (Nat.two_pow_pos _), ← Nat.pow_add]
  by_cases h : count = 0
  · subst h
    exact Nat.two_pow_pos _
  · refine (Nat.log2_lt h).1 ?_
    unfold place
    omega

/-- A multiple of a power of two with at most 53 bits in front of it, or the next power of two, has
its last place at or below that power, or one above it. -/
theorem two_pow_place_dvd (significand e : Nat) (h : significand ≤ 2 ^ 53) :
    2 ^ place (significand * 2 ^ e) ∣ significand * 2 ^ e := by
  by_cases zero : significand = 0
  · simp [zero]
  · have pos : significand * 2 ^ e ≠ 0 := Nat.mul_ne_zero zero (Nat.ne_of_gt (Nat.two_pow_pos e))
    rcases Nat.lt_or_eq_of_le h with small | full
    · refine Nat.dvd_trans (Nat.pow_dvd_pow 2 ?_) (Nat.dvd_mul_left _ _)
      have : (significand * 2 ^ e).log2 < 53 + e := by
        rw [Nat.log2_lt pos, Nat.pow_add]
        exact Nat.mul_lt_mul_of_pos_right small (Nat.two_pow_pos e)
      unfold place
      omega
    · rw [full, ← Nat.pow_add]
      refine Nat.pow_dvd_pow 2 ?_
      simp only [place, Nat.log2_two_pow]
      omega

end Quanta

/-- The counts of quanta that a finite number can have: 53 significand bits and no overflow. -/
def Representable (count : Nat) : Prop :=
  2 ^ Quanta.place count ∣ count ∧ count < Quanta.bound

instance (count : Nat) : Decidable (Representable count) :=
  inferInstanceAs (Decidable (_ ∧ _))

theorem Quanta.two_pow_place_nearest_dvd (num den : Nat) :
    2 ^ Quanta.place (Quanta.nearest num den) ∣ Quanta.nearest num den := by
  refine Quanta.two_pow_place_dvd _ _ ?_
  have le := Quanta.divideToEven_le num (den * 2 ^ Quanta.place (num / den))
  have lt := Quanta.div_place_lt (num / den)
  rw [← Nat.div_div_eq_div_mul] at le
  omega

/-- A binary64 number. -/
inductive Number where
  | nan (payload : Nat)
  | infinite (negative : Bool)
  | finite (negative : Bool) (count : Nat) (valid : Representable count)
  deriving DecidableEq

namespace Number

/-- The nearest number to the quotient of two counts of quanta. -/
def round (negative : Bool) (num den : Nat) : Number :=
  if h : Quanta.nearest num den < Quanta.bound then
    .finite negative (Quanta.nearest num den) ⟨Quanta.two_pow_place_nearest_dvd num den, h⟩
  else
    .infinite negative

theorem representable_zero : Representable 0 :=
  ⟨Nat.dvd_zero _, Quanta.bound_pos⟩

/-- The zero of a sign. -/
def zero (negative : Bool) : Number := .finite negative 0 representable_zero

/-- The number nearest to a natural number. -/
def ofNat (n : Nat) : Number := round false (n * Quanta.one) 1

/-- A count of quanta with its sign. -/
def signed (negative : Bool) (count : Nat) : Int :=
  if negative then -(count : Int) else count

/-- Where a number stands in the order of numbers: its quanta, an infinity standing at the least count
beyond all numbers. A not-a-number stands nowhere. -/
def rank : Number → Option Int
  | .nan _ => none
  | .infinite negative => some (signed negative Quanta.bound)
  | .finite negative count _ => some (signed negative count)

/-- Numerical equality: the zeros are equal, and a not-a-number differs from everything. -/
def eq (x y : Number) : Bool :=
  match x.rank, y.rank with
  | some a, some b => a == b
  | _, _ => false

/-- Numerical order; false if either side is a not-a-number. -/
def lt (x y : Number) : Bool :=
  match x.rank, y.rank with
  | some a, some b => a < b
  | _, _ => false

/-- Numerical order with equality; false if either side is a not-a-number. -/
def le (x y : Number) : Bool :=
  match x.rank, y.rank with
  | some a, some b => a ≤ b
  | _, _ => false

/-- Equality of numbers as keys: numerically equal, or the same not-a-number. -/
def same : Number → Number → Bool
  | .nan payload, .nan other => payload == other
  | x, y => x.eq y

/-- The integer that a number equals, if there is one. -/
def toInt? : Number → Option Int
  | .finite negative count _ =>
    if count % Quanta.one = 0 then some (signed negative (count / Quanta.one)) else none
  | _ => none

end Number

end Treewalk

import Treewalk.Number.Decimal

/-!
# Shortest digits

The decimal that a number is written with: of all decimals that read back as the number, one of the
fewest digits, and of those the nearest to the number; a tie goes to the even last digit.

For each count of digits only the two neighbours of the number on that decimal grid need testing: if
any point of the grid reads back, one of the two does. Seventeen digits always suffice; the exact
expansion stands behind the search so that the result reads back by construction.
-/

namespace Treewalk.Decimal

/-- The power of ten of the leading digit of `count` quanta. -/
def leading (count : Nat) : Int :=
  (Nat.toDigits 10 (count * 10 ^ Number.decimalReach / Quanta.one)).length
    - (Number.decimalReach + 1 : Nat)

/-- The two neighbours of `count` quanta among the multiples of `10 ^ exponent`, the nearer first. -/
def neighbours (count : Nat) (exponent : Int) : List Decimal :=
  let num := count * 10 ^ (-exponent).toNat
  let den := Quanta.one * 10 ^ exponent.toNat
  let floor := num / den
  let twice := 2 * (num % den)
  let below : Decimal := ⟨floor, exponent⟩
  let above : Decimal := ⟨floor + 1, exponent⟩
  if twice < den ∨ (twice = den ∧ floor % 2 = 0) then [below, above] else [above, below]

/-- The nearer neighbour that reads back as `count` quanta. -/
def onGrid? (count : Nat) (exponent : Int) : Option Decimal :=
  (neighbours count exponent).find? fun d => d.quanta == count

/-- All digits of `count` quanta. -/
def exact (count : Nat) : Decimal :=
  ⟨count * 5 ^ Quanta.depth, -(Quanta.depth : Int)⟩

/-- The shortest decimal that reads back as `count` quanta. -/
def shortest (count : Nat) : Decimal :=
  let top := leading count
  ((List.range 17).findSome? fun (more : Nat) => onGrid? count (top - more)).getD (exact count)

end Treewalk.Decimal

import Treewalk.Number.Basic
import Treewalk.Text.Numeral

/-!
# Decimals

A decimal is a natural number times a power of ten. `Number.ofDecimal` takes it to the nearest number,
and `Number.ofText?` reads the text of one.
-/

namespace Treewalk

/-- The value `digits · 10 ^ exponent`. -/
structure Decimal where
  digits : Nat
  exponent : Int
  deriving DecidableEq

namespace Decimal

/-- Numerator of the value as a quotient of naturals. -/
def num (d : Decimal) : Nat := d.digits * 10 ^ d.exponent.toNat

/-- Denominator of the value as a quotient of naturals. -/
def den (d : Decimal) : Nat := 10 ^ (-d.exponent).toNat

/-- The representable count of quanta nearest to the value, overflow aside. -/
def quanta (d : Decimal) : Nat := Quanta.nearest (d.num * Quanta.one) d.den

end Decimal

namespace Number

/-- The number nearest to a decimal. -/
def ofDecimal (negative : Bool) (d : Decimal) : Number :=
  round negative (d.num * Quanta.one) d.den

/-- Every decimal of exponent above this overflows, and every one below its negative vanishes. -/
def decimalReach : Nat := 400

/-- The decimal with its exponent brought within reach. A decimal that this changes is so large or so
small that it overflows or vanishes before and after. -/
def withinReach (length : Nat) (d : Decimal) : Decimal :=
  { d with exponent := max (-(length + decimalReach : Nat) : Int) (min d.exponent decimalReach) }

/-- The power of ten at the end of a numeral, if what is left of the numeral is one. -/
def exponentOf? : List Char → Option Int
  | [] => some 0
  | c :: cs =>
    let (negative, digits) := Text.splitSign cs
    if (c = 'e' ∨ c = 'E') ∧ digits ≠ [] ∧ digits.all Text.isDigit then
      let value : Int := Text.digitsValue digits
      some (if negative then -value else value)
    else
      none

/-- A fraction: a point and the digits after it; nothing if there is no point. -/
def splitFraction : List Char → List Char × List Char
  | '.' :: cs => (cs.takeWhile Text.isDigit, cs.dropWhile Text.isDigit)
  | cs => ([], cs)

/-- Digits with an optional fraction and an optional power of ten. -/
def ofPlain? (negative : Bool) (cs : List Char) : Option Number :=
  let whole := cs.takeWhile Text.isDigit
  let (fraction, rest) := splitFraction (cs.dropWhile Text.isDigit)
  let digits := whole ++ fraction
  if digits = [] then none
  else
    (exponentOf? rest).map fun exponent =>
      ofDecimal negative
        (withinReach digits.length
          { digits := Text.digitsValue digits, exponent := exponent - fraction.length })

/-- The number that a text spells: a decimal, an infinity, or a not-a-number. -/
def ofText? (s : String) : Option Number :=
  match Text.bareNumeral? s with
  | none => none
  | some cs =>
    let (negative, rest) := Text.splitSign cs
    let name := String.ofList (rest.map Char.toLower)
    if name = "inf" ∨ name = "infinity" then some (.infinite negative)
    else if name = "nan" then some (.nan 0)
    else ofPlain? negative rest

end Number

end Treewalk

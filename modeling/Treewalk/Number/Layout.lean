import Treewalk.Number.Shortest

/-!
# Writing numbers

`Number.text` is how a number is printed: an integer of any size with all its digits, any other number
in `Number.decimalText`, which always shows a point, an exponent or a name.
-/

namespace Treewalk

/-- How the digits of a decimal are laid out. -/
structure Layout where
  /-- The least exponent of the leading digit that is written without a power of ten. -/
  least : Int
  /-- The greatest such exponent. -/
  greatest : Int
  /-- The least number of digits of a power of ten. -/
  width : Nat

/-- From a ten-thousandth to below ten quadrillions there is no power of ten; a power of ten has a
sign and two digits or more. -/
def Number.layout : Layout := { least := -4, greatest := 15, width := 2 }

namespace Layout

/-- A power of ten with its sign. -/
def power (layout : Layout) (exponent : Int) : List Char :=
  let digits := Nat.toDigits 10 exponent.natAbs
  'e' :: (if exponent < 0 then '-' else '+') ::
    (List.replicate (layout.width - digits.length) '0' ++ digits)

/-- Digits with the point after the first `before` of them, filled up with zeros on either side. -/
def positional (digits : List Char) (before : Int) : List Char :=
  if before ≤ 0 then '0' :: '.' :: (List.replicate (-before).toNat '0' ++ digits)
  else if digits.length ≤ before.toNat then
    digits ++ List.replicate (before.toNat - digits.length) '0' ++ ['.', '0']
  else digits.take before.toNat ++ '.' :: digits.drop before.toNat

/-- One digit, the point and the others, if there are any, and the power of ten. -/
def scientific (layout : Layout) (digits : List Char) (exponent : Int) : List Char :=
  match digits with
  | [] => []
  | [digit] => digit :: layout.power exponent
  | digit :: rest => digit :: '.' :: (rest ++ layout.power exponent)

/-- A decimal other than zero, without the zeros at its end. -/
def write (layout : Layout) (d : Decimal) : List Char :=
  let all := Nat.toDigits 10 d.digits
  let digits := (all.reverse.dropWhile (· = '0')).reverse
  let exponent := d.exponent + all.length - 1
  if layout.least ≤ exponent ∧ exponent ≤ layout.greatest then positional digits (exponent + 1)
  else layout.scientific digits exponent

end Layout

namespace Number

/-- A sign, if there is one, and the digits. -/
def withSign (negative : Bool) (cs : List Char) : String :=
  String.ofList (if negative then '-' :: cs else cs)

/-- The number with its point or its power of ten. -/
def decimalText : Number → String
  | .nan _ => "nan"
  | .infinite negative => withSign negative ['i', 'n', 'f']
  | .finite negative count _ =>
    withSign negative
      (if count = 0 then ['0', '.', '0'] else layout.write (Decimal.shortest count))

/-- The number as it is printed. -/
def text (x : Number) : String :=
  match x.toInt? with
  | some n => withSign (n < 0) (Nat.toDigits 10 n.natAbs)
  | none => x.decimalText

end Number

end Treewalk

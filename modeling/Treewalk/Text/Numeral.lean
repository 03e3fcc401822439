import Treewalk.Text.Blank
import Treewalk.Text.Digit

/-!
# Numerals

What whole and fractional numerals have in common, and the whole ones. Blanks may stand around a
numeral, a sign in front of it, and single underscores between its digits.
-/

namespace Treewalk.Text

/-- Split off a sign; true for a minus. -/
def splitSign : List Char → Bool × List Char
  | '-' :: cs => (true, cs)
  | '+' :: cs => (false, cs)
  | cs => (false, cs)

/-- Whether every underscore stands between two digits; `afterDigit` tells of the character before. -/
def underscoresJoin (afterDigit : Bool) : List Char → Bool
  | [] => true
  | ['_'] => false
  | '_' :: c :: cs => afterDigit && isDigit c && underscoresJoin true cs
  | c :: cs => underscoresJoin (isDigit c) cs

/-- A numeral without the blanks around it and the underscores in it, if they stand where they may. -/
def bareNumeral? (s : String) : Option (List Char) :=
  let cs := strip isNumeralBlank s.toList
  if underscoresJoin false cs then some (cs.filter (· ≠ '_')) else none

/-- The most digits that a whole numeral may have. -/
def mostDigits : Nat := 4300

/-- The value of a whole numeral. -/
def integer? (s : String) : Option Int :=
  match bareNumeral? s with
  | none => none
  | some cs =>
    let (negative, digits) := splitSign cs
    if digits ≠ [] ∧ digits.all isDigit ∧ digits.length ≤ mostDigits then
      let value : Int := digitsValue digits
      some (if negative then -value else value)
    else
      none

end Treewalk.Text

import Treewalk.Number.Basic

/-!
# Arithmetic

Each operation is the exact one on counts of quanta, rounded once. An operation without a result gives
a not-a-number with the payload it was handed, and so does one with a not-a-number as operand: no
operation passes an operand's payload on.
-/

namespace Treewalk.Number

/-- The payload of the one not-a-number that division by zero gives. -/
def sharedPayload : Nat := 0

def isNaN : Number → Bool
  | .nan _ => true
  | _ => false

def isZero : Number → Bool
  | .finite _ count _ => count == 0
  | _ => false

/-- The number with the opposite sign. -/
def neg (payload : Nat) : Number → Number
  | .nan _ => .nan payload
  | .infinite negative => .infinite !negative
  | .finite negative count valid => .finite (!negative) count valid

/-- A sum of zero is negative only if both summands are. -/
def add (payload : Nat) : Number → Number → Number
  | .finite s count _, .finite t other _ =>
    let sum := signed s count + signed t other
    if sum = 0 then zero (s && t) else round (sum < 0) sum.natAbs 1
  | .infinite s, .infinite t => if s = t then .infinite s else .nan payload
  | .infinite s, .finite .. => .infinite s
  | .finite .., .infinite t => .infinite t
  | _, _ => .nan payload

def sub (payload : Nat) (x y : Number) : Number :=
  add payload x (neg payload y)

/-- The product of quanta is counted in squared quanta, of which `Quanta.one` make a quantum. -/
def mul (payload : Nat) : Number → Number → Number
  | .finite s count _, .finite t other _ => round (s != t) (count * other) Quanta.one
  | .infinite s, .infinite t => .infinite (s != t)
  | .infinite s, .finite t other _ => if other = 0 then .nan payload else .infinite (s != t)
  | .finite s count _, .infinite t => if count = 0 then .nan payload else .infinite (s != t)
  | _, _ => .nan payload

/-- A zero divisor gives an infinity, except under a zero or a not-a-number: then the result is the
shared not-a-number. -/
def div (payload : Nat) : Number → Number → Number
  | .finite s count _, .finite t other _ =>
    if other = 0 then (if count = 0 then .nan sharedPayload else .infinite (s != t))
    else round (s != t) (count * Quanta.one) other
  | .infinite _, .infinite _ => .nan payload
  | .infinite s, .finite t _ _ => .infinite (s != t)
  | .finite s _ _, .infinite t => zero (s != t)
  | .nan _, y => if y.isZero then .nan sharedPayload else .nan payload
  | _, .nan _ => .nan payload

end Treewalk.Number

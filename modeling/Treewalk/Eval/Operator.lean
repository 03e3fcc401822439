import Treewalk.Number.Arithmetic
import Treewalk.Value.Basic

/-!
# Operators

What operators do to values. Each takes the id that a new object or a new not-a-number of it gets.

Two numbers and two texts have operators of their own. Any other two values of one kind can only be
compared, and are equal if they are the same object; values of different kinds cannot be compared.
-/

namespace Treewalk

namespace Operator

/-- An operator in front of a value. -/
def unary (id : Nat) (operator : String) (operand : Value) : Except Fault Value :=
  match operator, operand with
  | "!", _ => .ok (.boolean !operand.truthy)
  | "-", .number x => .ok (.number (x.neg id))
  | _, _ => .error (.unknownUnary operator operand.kind)

/-- An operator between two numbers. -/
def numeric? (id : Nat) (operator : String) (x y : Number) : Option Value :=
  match operator with
  | "+" => some (.number (x.add id y))
  | "-" => some (.number (x.sub id y))
  | "*" => some (.number (x.mul id y))
  | "/" => some (.number (x.div id y))
  | "<" => some (.boolean (x.lt y))
  | ">" => some (.boolean (y.lt x))
  | "<=" => some (.boolean (x.le y))
  | ">=" => some (.boolean (y.le x))
  | "==" => some (.boolean (x.eq y))
  | "!=" => some (.boolean !x.eq y)
  | _ => none

/-- An operator between two texts. -/
def textual? (operator : String) (s t : String) : Option Value :=
  match operator with
  | "+" => some (.text (s ++ t))
  | "==" => some (.boolean (s == t))
  | "!=" => some (.boolean (s != t))
  | _ => none

/-- An operator between two values of one kind that are neither numbers nor texts. -/
def identical? (operator : String) (left right : Value) : Option Value :=
  match operator with
  | "==" => some (.boolean (left.same right))
  | "!=" => some (.boolean !left.same right)
  | _ => none

/-- An operator between two values. -/
def binary (id : Nat) (operator : String) (left right : Value) : Except Fault Value :=
  let outcome? :=
    match left, right with
    | .number x, .number y => numeric? id operator x y
    | .text s, .text t => textual? operator s t
    | _, _ => identical? operator left right
  if left.kind = right.kind then
    match outcome? with
    | some value => .ok value
    | none => .error (.unknownBinary left.kind operator right.kind)
  else .error (.mismatch left.kind operator right.kind)

/-- What a value holds at a position: an item of an array or a value of a hash; null if there is
nothing. -/
def index (subject position : Value) : Except Fault Value :=
  match subject with
  | .array _ items =>
    match position with
    | .number x =>
      match x.toInt? with
      | some n => .ok (if n < 0 then .null else (items[n.toNat]?).getD .null)
      | none => .ok .null
    | _ => .error (.positionKind position.kind)
  | .hash _ entries =>
    match position.key? with
    | some key => .ok ((Entries.find? entries key).getD .null)
    | none => .error (.unusableKey position.kind)
  | _ => .error (.notIndexable subject.kind)

end Operator

end Treewalk

import Treewalk.Value.Display

/-!
# Built-in functions

Arrays never change: `rest` and `push` make new ones. Each function takes the id of the array it may
make.
-/

namespace Treewalk.Builtin

/-- How many arguments a function takes, if that is fixed. -/
def parameters? : Builtin → Option Nat
  | .push => some 2
  | .puts => none
  | _ => some 1

/-- The items of an argument that has to be an array. -/
def items (builtin : Builtin) : Value → Except Fault (List Value)
  | .array _ items => .ok items
  | argument => .error (.notAnArray builtin argument.kind)

/-- What a function gives for arguments of the right number. -/
def result (id : Nat) : Builtin → List Value → Except Fault Value
  | .len, [.text s] => .ok (.number (.ofNat s.length))
  | .len, [.array _ items] => .ok (.number (.ofNat items.length))
  | .len, [argument] => .error (.noLength argument.kind)
  | .first, [argument] => (items .first argument).map fun items => items.head?.getD .null
  | .last, [argument] => (items .last argument).map fun items => items.getLast?.getD .null
  | .rest, [argument] =>
    (items .rest argument).map fun
      | [] => .null
      | _ :: others => .array id others
  | .push, [argument, item] => (items .push argument).map fun items => .array id (items ++ [item])
  | _, _ => .ok .null

/-- What a function gives. -/
def apply (id : Nat) (builtin : Builtin) (arguments : List Value) : Except Fault Value :=
  match builtin.parameters? with
  | some expected =>
    if arguments.length = expected then builtin.result id arguments
    else .error (.arity expected arguments.length)
  | none => builtin.result id arguments

/-- The lines that a function prints. -/
def printed (builtin : Builtin) (arguments : List Value) : List String :=
  match builtin with
  | .puts => arguments.map Value.display
  | _ => []

end Treewalk.Builtin

import Treewalk.Tree.Node
import Treewalk.Value.Fault

/-!
# Values

What a running program computes with. Arrays, hashes, functions and the two signals are objects: they
carry an id, and two of them are the same for `==` only if their ids agree. Everything else is the
same whenever it looks the same.

A `result` is the signal of a `return` on its way to the call it ends, and an `error` the signal of a
fault on its way out of the program. Both are values, because a host may put one wherever a value may
stand.
-/

namespace Treewalk

/-- What a hash can be asked for. -/
inductive Key where
  | number (x : Number)
  | boolean (b : Bool)
  | text (s : String)
  deriving DecidableEq

/-- Keys that a hash does not tell apart: equal numbers, the same not-a-number, the same truth value,
the same text. -/
def Key.same : Key → Key → Bool
  | .number x, .number y => x.same y
  | .boolean a, .boolean b => a == b
  | .text s, .text t => s == t
  | _, _ => false

/-- A value. A function holds the number of the scope it was made in. -/
inductive Value where
  | null
  | boolean (b : Bool)
  | number (x : Number)
  | text (s : String)
  | array (id : Nat) (items : List Value)
  | hash (id : Nat) (entries : List (Key × Value))
  | function (id : Nat) (parameters : List Name) (body : Node) (home : Nat)
  | builtin (b : Builtin)
  | result (id : Nat) (value : Value)
  | error (id : Nat) (line : Int) (fault : Fault)

/-- The entries of a hash, in the order in which their keys were first put in. -/
abbrev Entries := List (Key × Value)

/-- Put an entry in. An entry of the same key gives way to it and leaves it its place. -/
def Entries.insert (key : Key) (value : Value) : Entries → Entries
  | [] => [(key, value)]
  | (k, v) :: more =>
    if k.same key then (key, value) :: more else (k, v) :: Entries.insert key value more

/-- The value under a key. -/
def Entries.find? (entries : Entries) (key : Key) : Option Value :=
  (List.find? (fun entry => entry.1.same key) entries).map Prod.snd

namespace Value

def kind : Value → Kind
  | .null => .null
  | .boolean _ => .boolean
  | .number _ => .number
  | .text _ => .text
  | .array .. => .array
  | .hash .. => .hash
  | .function .. => .function
  | .builtin _ => .builtin
  | .result .. => .result
  | .error .. => .error

/-- Everything is true but `false` and `null`. -/
def truthy : Value → Bool
  | .null => false
  | .boolean b => b
  | _ => true

/-- The signals, which end what is being evaluated. -/
def isSignal : Value → Bool
  | .result .. | .error .. => true
  | _ => false

def isError : Value → Bool
  | .error .. => true
  | _ => false

/-- What a call or a program gives back: the value that a `return` carries, and any other value as it
is. -/
def unwrapped : Value → Value
  | .result _ value => value
  | value => value

/-- The value as a key, if it can be one. -/
def key? : Value → Option Key
  | .number x => some (.number x)
  | .boolean b => some (.boolean b)
  | .text s => some (.text s)
  | _ => none

/-- Whether two values are the same object. -/
def same : Value → Value → Bool
  | .null, .null => true
  | .boolean a, .boolean b => a == b
  | .number x, .number y => x.same y
  | .text s, .text t => s == t
  | .array i _, .array j _ => i == j
  | .hash i _, .hash j _ => i == j
  | .function i _ _ _, .function j _ _ _ => i == j
  | .builtin a, .builtin b => a == b
  | .result i _, .result j _ => i == j
  | .error i _ _, .error j _ _ => i == j
  | _, _ => false

end Value

end Treewalk

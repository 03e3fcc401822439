import Treewalk.Store.Bindings

/-!
# The store

All scopes of a session, numbered in the order in which they were made, the next free id for an
object, and a log of what a run did.

A scope is enclosed by one that was made before it, so the chain of scopes outwards from a scope ends.
`Store.chain` walks it, and `Store.lookup` takes the first binding it meets.
-/

namespace Treewalk

/-- The bindings of one scope, and the scope around it. -/
structure Scope where
  outer : Option Nat
  bindings : Bindings

/-- Something that a run did. -/
inductive Event where
  /-- A line was printed. -/
  | printed (line : String)
  /-- A name was bound in a scope. -/
  | bound (scope : Nat) (name : String) (value : Value)
  /-- A scope was made for a call. -/
  | opened (scope home : Nat)
  /-- The call that a scope was made for gave a value. -/
  | closed (scope : Nat) (value : Value)
  /-- A value set out as the result of a call. -/
  | returned (id : Nat) (value : Value)
  /-- An error was found. -/
  | raised (id : Nat) (line : Int) (fault : Fault)

/-- The state of a running program. The log has the latest event first. -/
structure Store where
  scopes : Array Scope
  nextId : Nat
  log : List Event

namespace Store

/-- No scopes. The id 0 belongs to no object. -/
def empty : Store := { scopes := #[], nextId := 1, log := [] }

/-- A scope and the scopes around it, from the inside out. -/
def chain (store : Store) (scope : Nat) : List Nat :=
  match store.scopes[scope]? with
  | none => []
  | some found =>
    match found.outer with
    | none => [scope]
    | some outer => if outer < scope then scope :: store.chain outer else [scope]
termination_by scope

/-- The bindings of a scope. -/
def bindings (store : Store) (scope : Nat) : Bindings :=
  (store.scopes[scope]?.map Scope.bindings).getD []

/-- The value of a name, as it is seen from a scope. -/
def lookup (store : Store) (scope : Nat) (name : String) : Option Value :=
  (store.chain scope).findSome? fun i => (store.bindings i).find? name

/-- Bind a name in a scope. -/
def bind (store : Store) (scope : Nat) (name : String) (value : Value) : Store :=
  { store with
    scopes := store.scopes.modify scope fun s => { s with bindings := s.bindings.set name value } }

/-- Make a scope; its number is the number of scopes before it. -/
def addScope (store : Store) (outer : Option Nat) : Store :=
  { store with scopes := store.scopes.push ⟨outer, []⟩ }

/-- The text that a run printed. -/
def output (store : Store) : String :=
  String.join <| store.log.reverse.map fun
    | .printed line => line ++ "\n"
    | _ => ""

end Store

end Treewalk

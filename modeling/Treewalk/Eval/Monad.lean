import Treewalk.Store.Basic

/-!
# Evaluation as an effect

`Eval` is what running a piece of a program amounts to: it changes the store, and then gives a value
or is cut short because calls are nested too deeply. What was done before a cut stays done.
-/

namespace Treewalk

/-- Why a run was cut short. -/
inductive Cut where
  | tooDeep
  deriving DecidableEq

/-- A run in a store. -/
abbrev Eval := EStateM Cut Store

namespace Eval

/-- An id that no object has. -/
def fresh : Eval Nat :=
  modifyGet fun store => (store.nextId, { store with nextId := store.nextId + 1 })

/-- Put an event on the log. -/
def record (event : Event) : Eval Unit :=
  modify fun store => { store with log := event :: store.log }

/-- Find an error. -/
def raise (line : Int) (fault : Fault) : Eval Value := do
  let id ← fresh
  record (.raised id line fault)
  return .error id line fault

/-- Send a value on its way to the call it ends. -/
def giveBack (value : Value) : Eval Value := do
  let id ← fresh
  record (.returned id value)
  return .result id value

/-- Take the outcome of an operation on values. -/
def settle (line : Int) : Except Fault Value → Eval Value
  | .ok value => pure value
  | .error fault => raise line fault

/-- Bind a name in a scope. -/
def assign (scope : Nat) (name : String) (value : Value) : Eval Unit := do
  modify fun store => store.bind scope name value
  record (.bound scope name value)

/-- Make the scope of a call. -/
def openScope (home : Nat) : Eval Nat := do
  let scope := (← get).scopes.size
  modify fun store => store.addScope (some home)
  record (.opened scope home)
  return scope

/-- Bind parameters to arguments, in order. -/
def assignAll (scope : Nat) : List Name → List Value → Eval Unit
  | name :: names, value :: values => do
    assign scope name.text value
    assignAll scope names values
  | _, _ => pure ()

/-- Print lines. -/
def printAll : List String → Eval Unit
  | [] => pure ()
  | line :: lines => do
    record (.printed line)
    printAll lines

/-- Go on with an ordinary value; a signal is passed on as it is. -/
def andThen (run : Eval Value) (next : Value → Eval Value) : Eval Value := do
  let value ← run
  if value.isSignal then return value else next value

end Eval

end Treewalk

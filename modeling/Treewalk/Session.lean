import Treewalk.Eval.Node
import Treewalk.Reader.Phase

/-!
# Sessions

A session runs one source after another in one root scope, so that later sources see the bindings of
earlier ones. A source that cannot be read changes nothing; a run that is cut short keeps what it did
before.
-/

namespace Treewalk

/-- How running a source ended. -/
inductive Outcome where
  | value (value : Value)
  | unreadable (error : ReadError)
  | cut (cut : Cut)

/-- A store and the scope that sources are run in. -/
structure Session where
  root : Nat
  store : Store

namespace Session

/-- How many calls may be nested. -/
def callDepth : Nat := 1000

/-- A session with a new root scope in a store. -/
def within (store : Store) : Session :=
  { root := store.scopes.size, store := store.addScope none }

/-- A session without bindings. -/
def new : Session := within .empty

/-- Run something in the root scope; the log is that of this run alone. -/
def run (session : Session) (piece : Eval Value) : Outcome × Session :=
  match piece { session.store with log := [] } with
  | .ok value store => (.value value, { session with store })
  | .error cut store => (.cut cut, { session with store })

/-- Run a tree. -/
def evalNode (session : Session) (depth : Nat) (node : Node) : Outcome × Session :=
  session.run (node.eval (apply depth) session.root)

/-- Run a source. -/
def eval (session : Session) (depth : Nat) (source : String) : Outcome × Session :=
  match parse source with
  | .ok program => session.evalNode depth program
  | .error e => (.unreadable e, { session with store := { session.store with log := [] } })

end Session

end Treewalk

import Treewalk.Eval.Builtin
import Treewalk.Eval.Monad
import Treewalk.Eval.Operator

/-!
# Running trees

`Node.eval` gives every tree a meaning in a scope. It goes down the tree, and what it means to call a
value is handed to it, so it ends on every tree. `apply` closes the circle: a call runs the body of the
function with one level of calls less. Without levels left a call is cut short.

Parts are run from left to right. A signal that one of them gives is passed on at once, and no further
part is run.
-/

namespace Treewalk

/-- What it means to call a value with arguments, on a line. -/
abbrev Call := Value → List Value → Int → Eval Value

open Eval

mutual

/-- Run a tree in a scope. -/
def Node.eval (call : Call) (scope : Nat) : Node → Eval Value
  | .missing => raise 0 (.nothingToEvaluate "NoneType")
  | .bare line => raise line (.nothingToEvaluate "Node")
  | .identifier line name => do
    match (← get).lookup scope name with
    | some value => return value
    | none =>
      match Builtin.find? name with
      | some builtin => return .builtin builtin
      | none => raise line (.notFound name)
  | .number _ value _ => return .number value
  | .text _ value => return .text value
  | .boolean _ value => return .boolean value
  | .unary line operator operand =>
    andThen (operand.eval call scope) fun value => do
      settle line (Operator.unary (← fresh) operator value)
  | .binary line left operator right =>
    andThen (left.eval call scope) fun a =>
      andThen (right.eval call scope) fun b => do
        settle line (Operator.binary (← fresh) operator a b)
  | .logical _ left operator right =>
    andThen (left.eval call scope) fun a =>
      if operator = "and" ∧ a.truthy = false then return .boolean false
      else if operator = "or" ∧ a.truthy = true then return .boolean true
      else andThen (right.eval call scope) fun b => return .boolean b.truthy
  | .conditional _ condition consequence none =>
    andThen (condition.eval call scope) fun value =>
      if value.truthy then consequence.eval call scope else return .null
  | .conditional _ condition consequence (some alternative) =>
    andThen (condition.eval call scope) fun value =>
      if value.truthy then consequence.eval call scope else alternative.eval call scope
  | .function _ parameters body => return .function (← fresh) parameters body scope
  | .call line callee arguments =>
    andThen (callee.eval call scope) fun function => do
      match ← evalEach call scope arguments with
      | .ok values => call function values line
      | .error signal => return signal
  | .array _ items => do
    match ← evalEach call scope items with
    | .ok values => return .array (← fresh) values
    | .error signal => return signal
  | .index line subject position =>
    andThen (subject.eval call scope) fun a =>
      andThen (position.eval call scope) fun b => settle line (Operator.index a b)
  | .hash _ entries => do
    match ← evalEntries call scope [] entries with
    | .ok entries => return .hash (← fresh) entries
    | .error signal => return signal
  | .binding _ name value =>
    andThen (value.eval call scope) fun value => do
      assign scope name.text value
      return .null
  | .result _ none => giveBack .null
  | .result _ (some value) => andThen (value.eval call scope) giveBack
  | .expression _ inner => inner.eval call scope
  | .block _ statements => evalStatements call scope .null statements
  | .program _ statements => return (← evalStatements call scope .null statements).unwrapped

/-- Run the trees of a row; the values of all of them, or the first signal. -/
def evalEach (call : Call) (scope : Nat) : List Node → Eval (Except Value (List Value))
  | [] => return .ok []
  | node :: more => do
    let value ← node.eval call scope
    if value.isSignal then return .error value
    else
      match ← evalEach call scope more with
      | .ok values => return .ok (value :: values)
      | .error signal => return .error signal

/-- Run the entries of a hash literal after those in `done`; all entries, or the first signal. A key
that cannot be one is found before its value is run. -/
def evalEntries (call : Call) (scope : Nat) (done : Entries) :
    List (Node × Node) → Eval (Except Value Entries)
  | [] => return .ok done
  | (keyNode, valueNode) :: more => do
    let key ← keyNode.eval call scope
    if key.isSignal then return .error key
    else
      match key.key? with
      | none => return .error (← raise keyNode.line (.unusableKey key.kind))
      | some key => do
        let value ← valueNode.eval call scope
        if value.isSignal then return .error value
        else evalEntries call scope (Entries.insert key value done) more

/-- Run statements, the value of the one before being `last`: the last value, or the first signal. -/
def evalStatements (call : Call) (scope : Nat) (last : Value) : List Node → Eval Value
  | [] => return last
  | node :: more => do
    let value ← node.eval call scope
    if value.isSignal then return value else evalStatements call scope value more

end

/-- Call a value. A function runs in a new scope inside the one it was made in; `depth` is how many
calls may be nested. -/
def apply (depth : Nat) : Call := fun callee arguments line =>
  match callee with
  | .function _ parameters body home =>
    if arguments.length ≠ parameters.length then
      raise line (.arity parameters.length arguments.length)
    else
      match depth with
      | 0 => throw .tooDeep
      | depth + 1 => do
        let scope ← openScope home
        assignAll scope parameters arguments
        let value := (← body.eval (apply depth) scope).unwrapped
        record (.closed scope value)
        return value
  | .builtin builtin => do
    printAll (builtin.printed arguments)
    settle line (builtin.apply (← fresh) arguments)
  | _ => raise line (.notAFunction callee.kind)

end Treewalk

import Treewalk.Proofs.Eval.Frame
import Treewalk.Proofs.Store.Chains

/-!
# Quiet runs

A run is quiet if it prints nothing and leaves all scopes alone that were there before it. Names mean after
it what they meant before, so the parts of an expression can be looked at one by one, each in the store that
the first of them found (`Eval.Gives`). There is one rule for each form of node that it is used for: what
the parts have to give for the whole to give what is wanted. A run that has such a proof is not cut short.
-/

namespace Treewalk

/-! ## Quiet changes -/

namespace Store

/-- Every scope that was there is as it was, and nothing was printed. -/
structure Quiet (before after : Store) : Prop where
  untouched : before.Untouched after
  output : after.output = before.output

/-- Names mean in old scopes what they meant. -/
theorem Untouched.lookup_eq {before after : Store} (untouched : before.Untouched after) {scope : Nat}
    (inside : scope < before.scopes.size) (name : String) :
    after.lookup scope name = before.lookup scope name := by
  have links (i : Nat) (le : i ≤ scope) :
      after.scopes[i]?.map Scope.outer = before.scopes[i]?.map Scope.outer := by
    rw [untouched.scopes i (le.trans_lt inside)]
  rw [lookup, chain_congr links, lookup]
  refine findSome?_congr fun i member => ?_
  rw [bindings, bindings, untouched.scopes i (lt_size_of_mem_chain member)]

/-- An event that is no printed line is not seen in the output. -/
theorem output_cons {store : Store} {event : Event} (silent : ∀ line, event ≠ .printed line)
    (log : List Event) :
    ({ store with log := event :: log } : Store).output = ({ store with log := log } : Store).output := by
  cases event with
  | printed line => exact absurd rfl (silent line)
  | _ => simp [output]

namespace Quiet

variable {before store after : Store}

theorem refl (store : Store) : store.Quiet store := ⟨.of_scopes_eq rfl, rfl⟩

theorem trans (one : before.Quiet store) (two : store.Quiet after) : before.Quiet after :=
  ⟨one.untouched.trans two.untouched, two.output.trans one.output⟩

theorem lookup_eq (quiet : before.Quiet after) {scope : Nat} (inside : scope < before.scopes.size)
    (name : String) : after.lookup scope name = before.lookup scope name :=
  quiet.untouched.lookup_eq inside name

theorem renumber (quiet : before.Quiet store) (id : Nat) : before.Quiet { store with nextId := id } :=
  ⟨quiet.untouched.trans (.of_scopes_eq rfl), quiet.output⟩

theorem record (quiet : before.Quiet store) (event : Event) (silent : ∀ line, event ≠ .printed line) :
    before.Quiet { store with log := event :: store.log } :=
  ⟨quiet.untouched.trans (.of_scopes_eq rfl), (output_cons silent store.log).trans quiet.output⟩

/-- A binding in a new scope. -/
theorem bind (quiet : before.Quiet store) {scope : Nat} (new : before.scopes.size ≤ scope) (name : String)
    (value : Value) :
    before.Quiet { store.bind scope name value with log := .bound scope name value :: store.log } := by
  have bound : before.Untouched (store.bind scope name value) := by
    refine ⟨by simpa using quiet.untouched.size, fun i old => ?_⟩
    rw [getElem?_bind, if_neg (by omega), quiet.untouched.scopes i old]
  have quietly : before.Quiet (store.bind scope name value) := ⟨bound, quiet.output⟩
  exact quietly.record (.bound scope name value) (by simp)

theorem addScope (outer : Option Nat) : store.Quiet (store.addScope outer) := by
  refine ⟨⟨by simp, fun i old => ?_⟩, rfl⟩
  rw [getElem?_addScope, if_neg old.ne]

theorem bindAll (quiet : before.Quiet store) {scope : Nat} (new : before.scopes.size ≤ scope)
    (parameters : List Name) (arguments : List Value) :
    before.Quiet (store.bindAll scope parameters arguments) := by
  induction parameters generalizing store arguments with
  | nil => exact quiet
  | cons parameter parameters ih =>
      cases arguments with
      | nil => exact quiet
      | cons argument arguments => exact ih (quiet.bind new parameter.text argument) arguments

/-- Entering a function. -/
theorem entered (home : Nat) (parameters : List Name) (arguments : List Value) :
    store.Quiet (store.entered home parameters arguments) := by
  refine Quiet.bindAll ?_ le_rfl parameters arguments
  exact (addScope (some home)).record (.opened store.scopes.size home) (by simp)

end Quiet

theorem size_bindAll (store : Store) (scope : Nat) (parameters : List Name) (arguments : List Value) :
    (store.bindAll scope parameters arguments).scopes.size = store.scopes.size := by
  induction parameters generalizing store arguments with
  | nil => rfl
  | cons parameter parameters ih =>
      cases arguments with
      | nil => rfl
      | cons argument arguments => exact (ih _ arguments).trans (by simp)

/-- The scope of a call is there when the function is entered. -/
theorem lt_size_entered (store : Store) (home : Nat) (parameters : List Name) (arguments : List Value) :
    store.scopes.size < (store.entered home parameters arguments).scopes.size := by
  have size : (store.entered home parameters arguments).scopes.size = store.scopes.size + 1 :=
    (size_bindAll _ _ parameters arguments).trans (by simp)
  omega

end Store

/-! ## Runs that give a value quietly -/

namespace Eval

variable {α β : Type} {base : Store} {good good' : α → Prop}

/-- From every store that is reached quietly from `base`, a run gives a value of which `good` holds, and is
quiet itself. -/
def Gives (base : Store) (run : Eval α) (good : α → Prop) : Prop :=
  ∀ store, base.Quiet store →
    run.Ends store (fun value after => base.Quiet after ∧ good value) fun _ => False

theorem Gives.imp {run : Eval α} (gives : Gives base run good) (weaker : ∀ value, good value → good' value) :
    Gives base run good' :=
  fun store quiet => (gives store quiet).imp (fun _ _ done => ⟨done.1, weaker _ done.2⟩) fun _ none => none

theorem gives_pure {value : α} (holds : good value) : Gives base (pure value) good :=
  fun _ quiet => ⟨quiet, holds⟩

theorem gives_bind {run : Eval β} {next : β → Eval α}
    (gives : Gives base run fun value => Gives base (next value) good) : Gives base (run >>= next) good := by
  intro store quiet
  rw [ends_bind]
  refine (gives store quiet).imp ?_ fun _ none => none
  exact fun value after done => done.2 after done.1

theorem gives_fresh {good : Nat → Prop} (holds : ∀ id, good id) : Gives base fresh good := by
  intro store quiet
  rw [ends_fresh]
  exact ⟨quiet.renumber _, holds _⟩

theorem gives_andThen {run : Eval Value} {next : Value → Eval Value} {good : Value → Prop}
    (gives : Gives base run fun value => value.isSignal = false ∧ Gives base (next value) good) :
    Gives base (andThen run next) good := by
  intro store quiet
  rw [ends_andThen]
  refine (gives store quiet).imp ?_ fun _ none => none
  rintro value after ⟨reached, ordinary, more⟩
  rw [ordinary]
  exact more after reached

theorem gives_settle {outcome : Except Fault Value} {good : Value → Prop} (line : Int)
    (holds : ∃ value, outcome = .ok value ∧ good value) : Gives base (settle line outcome) good := by
  obtain ⟨value, rfl, isGood⟩ := holds
  exact gives_pure isGood

/-! ## Expressions -/

section Nodes

variable {call : Call} {scope : Nat} {good : Value → Prop}

/-- A name that is bound. -/
theorem gives_name {name : String} {value : Value} (line : Int) (inside : scope < base.scopes.size)
    (means : base.lookup scope name = some value) (holds : good value) :
    Gives base ((Node.identifier line name).eval call scope) good := by
  intro store quiet
  rw [Node.eval, ends_bind, ends_get, quiet.lookup_eq inside, means]
  exact ⟨quiet, holds⟩

/-- A name of a built-in function that no scope around binds. -/
theorem gives_builtin {name : String} {builtin : Builtin} (line : Int) (inside : scope < base.scopes.size)
    (unbound : base.lookup scope name = none) (builtIn : Builtin.find? name = some builtin)
    (holds : good (.builtin builtin)) : Gives base ((Node.identifier line name).eval call scope) good := by
  intro store quiet
  rw [Node.eval, ends_bind, ends_get, quiet.lookup_eq inside, unbound]
  simp only [builtIn]
  exact ⟨quiet, holds⟩

theorem gives_number {x : Number} (line : Int) (literal : String) (holds : good (.number x)) :
    Gives base ((Node.number line x literal).eval call scope) good := by
  rw [Node.eval]
  exact gives_pure holds

theorem gives_binary {left right : Node} {operator : String} (line : Int)
    (gives : Gives base (left.eval call scope) fun a => a.isSignal = false ∧
      Gives base (right.eval call scope) fun b => b.isSignal = false ∧
        ∀ id, ∃ value, Operator.binary id operator a b = .ok value ∧ good value) :
    Gives base ((Node.binary line left operator right).eval call scope) good := by
  rw [Node.eval]
  refine gives_andThen (gives.imp fun a leftGives => ⟨leftGives.1, ?_⟩)
  refine gives_andThen (leftGives.2.imp fun b rightGives => ⟨rightGives.1, ?_⟩)
  exact gives_bind (gives_fresh fun id => gives_settle line (rightGives.2 id))

theorem gives_conditional {condition consequence alternative : Node} (line : Int)
    (gives : Gives base (condition.eval call scope) fun value => value.isSignal = false ∧
      Gives base (if value.truthy then consequence.eval call scope else alternative.eval call scope) good) :
    Gives base ((Node.conditional line condition consequence (some alternative)).eval call scope) good := by
  rw [Node.eval]
  exact gives_andThen gives

/-- An expression that is the last statement is the value of the statements. -/
theorem ends_last_expression {node : Node} {line : Int} {last : Value} {store : Store}
    {done : Value → Store → Prop} {cut : Store → Prop} :
    (evalStatements call scope last [.expression line node]).Ends store done cut ↔
      (node.eval call scope).Ends store done cut := by
  have same (value : Value) :
      (if value.isSignal then pure value else evalStatements call scope value [] : Eval Value) =
        pure value := by
    rw [evalStatements, ite_self]
  rw [evalStatements, Node.eval, ends_bind]
  simp only [same, ends_pure]

/-- A block of one expression gives what the expression gives. -/
theorem gives_block {node : Node} (line expressionLine : Int)
    (gives : Gives base (node.eval call scope) good) :
    Gives base ((Node.block line [.expression expressionLine node]).eval call scope) good := by
  intro store quiet
  rw [Node.eval, ends_last_expression]
  exact gives store quiet

/-- The nodes of a row give values of which `good` holds together. -/
def GivesEach (base : Store) (call : Call) (scope : Nat) (nodes : List Node) (good : List Value → Prop) :
    Prop :=
  Gives base (evalEach call scope nodes) fun outcome => ∃ values, outcome = .ok values ∧ good values

theorem givesEach_nil {good : List Value → Prop} (holds : good []) : GivesEach base call scope [] good := by
  unfold GivesEach
  rw [evalEach]
  exact gives_pure ⟨[], rfl, holds⟩

theorem givesEach_cons {node : Node} {more : List Node} {good : List Value → Prop}
    (gives : Gives base (node.eval call scope) fun value => value.isSignal = false ∧
      GivesEach base call scope more fun values => good (value :: values)) :
    GivesEach base call scope (node :: more) good := by
  unfold GivesEach
  rw [evalEach]
  refine gives_bind (gives.imp fun value first => ?_)
  rw [first.1]
  refine gives_bind (first.2.imp ?_)
  rintro _ ⟨values, rfl, holds⟩
  exact gives_pure ⟨value :: values, rfl, holds⟩

theorem gives_call {callee : Node} {arguments : List Node} (line : Int)
    (gives : Gives base (callee.eval call scope) fun function => function.isSignal = false ∧
      GivesEach base call scope arguments fun values => Gives base (call function values line) good) :
    Gives base ((Node.call line callee arguments).eval call scope) good := by
  rw [Node.eval]
  refine gives_andThen (gives.imp fun function first => ⟨first.1, ?_⟩)
  refine gives_bind (first.2.imp ?_)
  rintro _ ⟨values, rfl, holds⟩
  exact holds

/-- An array literal is a new array of what its items give. -/
theorem gives_array {items : List Node} (line : Int)
    (gives : GivesEach base call scope items fun values => ∀ id, good (.array id values)) :
    Gives base ((Node.array line items).eval call scope) good := by
  rw [Node.eval]
  refine gives_bind (gives.imp ?_)
  rintro _ ⟨values, rfl, holds⟩
  exact gives_bind (gives_fresh fun id => gives_pure (holds id))

end Nodes

/-! ## Calls -/

variable {good : Value → Prop} {arguments : List Value}

/-- A call of a built-in function that prints nothing. -/
theorem gives_apply_builtin {builtin : Builtin} (depth : Nat) (line : Int)
    (silent : builtin.printed arguments = [])
    (holds : ∀ id, ∃ value, builtin.apply id arguments = .ok value ∧ good value) :
    Gives base (apply depth (.builtin builtin) arguments line) good := by
  unfold apply
  rw [silent]
  exact gives_bind (gives_pure (gives_bind (gives_fresh fun id => gives_settle line (holds id))))

/-- A call of a function, from what its body does in the scope that is made for it. -/
theorem gives_apply_of_body {rest id home : Nat} {parameters : List Name} {body : Node} (line : Int)
    (matching : arguments.length = parameters.length)
    (runs : ∀ store, base.Quiet store →
      (body.eval (apply rest) store.scopes.size).Ends (store.entered home parameters arguments)
        (fun value after => base.Quiet after ∧ good value.unwrapped) fun _ => False) :
    Gives base (apply (rest + 1) (.function id parameters body home) arguments line) good := by
  intro store quiet
  unfold Ends
  rw [apply_function_eq matching]
  have ends : ((do
      let value ← body.eval (apply rest) store.scopes.size
      record (.closed store.scopes.size value.unwrapped)
      return value.unwrapped : Eval Value)).Ends (store.entered home parameters arguments)
        (fun value after => base.Quiet after ∧ good value) fun _ => False := by
    simp only [ends_bind, ends_record, ends_pure]
    refine (runs store quiet).imp ?_ fun _ none => none
    exact fun value after done => ⟨done.1.record _ (by simp), done.2⟩
  exact ends

/-- A call of a function that binds nothing but its parameters. -/
theorem gives_apply {rest id home : Nat} {parameters : List Name} {body : Node} (line : Int)
    (matching : arguments.length = parameters.length)
    (gives : ∀ store, base.Quiet store →
      Gives (store.entered home parameters arguments) (body.eval (apply rest) store.scopes.size)
        fun value => good value.unwrapped) :
    Gives base (apply (rest + 1) (.function id parameters body home) arguments line) good := by
  refine gives_apply_of_body line matching fun store quiet => ?_
  refine (gives store quiet _ (.refl _)).imp ?_ fun _ none => none
  exact fun value after done => ⟨(quiet.trans (.entered home parameters arguments)).trans done.1, done.2⟩

end Eval

end Treewalk

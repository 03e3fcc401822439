import Treewalk.Proofs.Eval.Ends
import Treewalk.Proofs.Tree.Subtree
import Treewalk.Proofs.Value.Parts

/-!
# Disciplines of runs

Many facts about running programs have one shape. Something holds of the store whenever a part is
about to be run (`inv`); a part that gives an ordinary value moves the store in a certain way (`moves`)
and gives a value of which something holds (`plain`); a part that gives a signal ends the run in a
certain way (`stops`), and so does one that is cut short (`cuts`). A `Discipline` is a choice of these,
and `Discipline.Lawful` says what the choice has to withstand: each effect of the evaluator, once.

`Discipline.eval_follows` is the induction over trees, done once for all disciplines. What a tree is
made of enters by a `fact` about each of its places, the names it binds by `assigns`, and the errors it
finds by `Node.Raises`.
-/

namespace Treewalk

open Eval

/-! ## What a tree can do by itself -/

/-- A name that running the tree may bind in the scope it is run in. The body of a function literal is
not run there. -/
inductive Node.Assigns (name : String) : Node → Prop
  | here {line nameLine : Int} {value : Node} : Assigns name (.binding line ⟨nameLine, name⟩ value)
  | inside {node child : Node} : child ∈ node.children →
      (∀ line parameters body, node ≠ .function line parameters body) →
      Assigns name child → Assigns name node

/-- Why calling a value may fail before a body is run. -/
inductive CallFault : Value → List Value → Fault → Prop
  | arity {id home : Nat} {parameters : List Name} {body : Node} {arguments : List Value} :
      arguments.length ≠ parameters.length →
      CallFault (.function id parameters body home) arguments
        (.arity parameters.length arguments.length)
  | builtin {id : Nat} {builtin : Builtin} {arguments : List Value} {fault : Fault} :
      builtin.apply id arguments = .error fault → CallFault (.builtin builtin) arguments fault
  | other {callee : Value} {arguments : List Value} :
      callee.kind ≠ .function → callee.kind ≠ .builtin →
      CallFault callee arguments (.notAFunction callee.kind)

/-- The errors that a node finds itself, its parts aside, when its parts give `plain` values. -/
inductive Node.Raises (plain : Value → Prop) : Node → Int → Fault → Prop
  | missing : Raises plain .missing 0 (.nothingToEvaluate "NoneType")
  | bare {line : Int} : Raises plain (.bare line) line (.nothingToEvaluate "Node")
  | identifier {line : Int} {name : String} : Builtin.find? name = none →
      Raises plain (.identifier line name) line (.notFound name)
  | unary {line : Int} {operator : String} {operand : Node} {id : Nat} {value : Value} {fault : Fault} :
      plain value → Operator.unary id operator value = .error fault →
      Raises plain (.unary line operator operand) line fault
  | binary {line : Int} {operator : String} {left right : Node} {id : Nat} {a b : Value}
      {fault : Fault} : plain a → plain b → Operator.binary id operator a b = .error fault →
      Raises plain (.binary line left operator right) line fault
  | index {line : Int} {subject position : Node} {a b : Value} {fault : Fault} :
      plain a → plain b → Operator.index a b = .error fault →
      Raises plain (.index line subject position) line fault
  | key {line : Int} {entries : List (Node × Node)} {entry : Node × Node} {key : Value} :
      entry ∈ entries → plain key → key.key? = none →
      Raises plain (.hash line entries) entry.1.line (.unusableKey key.kind)
  | call {line : Int} {function : Node} {nodes : List Node} {callee : Value} {arguments : List Value}
      {fault : Fault} : plain callee → (∀ argument ∈ arguments, plain argument) →
      CallFault callee arguments fault → Raises plain (.call line function nodes) line fault

/-! ## Disciplines -/

/-- What is followed along a run. -/
structure Discipline where
  /-- What holds of a store in which a part is run. -/
  inv : Store → Prop
  /-- How a part that gives an ordinary value changes the store. -/
  moves : Store → Store → Prop
  /-- What holds of an ordinary value. -/
  plain : Store → Value → Prop
  /-- How a run ends that gives a signal. -/
  stops : Store → Value → Store → Prop
  /-- How a run ends that is cut short. -/
  cuts : Store → Store → Prop
  /-- What holds at every place of the trees that are run. -/
  fact : Node → Prop
  /-- The names that may be bound. -/
  assigns : String → Prop

namespace Discipline

variable (D : Discipline)

/-- What a run that was started in `store` has to show for the value it gives. -/
def Arrives (store : Store) (value : Value) (after : Store) : Prop :=
  if value.isSignal then D.stops store value after
  else D.inv after ∧ D.moves store after ∧ D.plain after value

/-- A run keeps to the discipline when it is started in `store`. -/
def Follows (store : Store) (run : Eval Value) : Prop :=
  run.Ends store (D.Arrives store) (D.cuts store)

/-- The same for a run that collects: something good, or the signal that stopped it. -/
def Gathers {γ : Type} (good : Store → γ → Prop) (store : Store) (collected : Except Value γ)
    (after : Store) : Prop :=
  match collected with
  | .ok values => D.inv after ∧ D.moves store after ∧ good after values
  | .error signal => signal.isSignal = true ∧ D.stops store signal after

/-- A run that collects keeps to the discipline when it is started in `store`. -/
def Collects {γ : Type} (good : Store → γ → Prop) (store : Store) (run : Eval (Except Value γ)) :
    Prop :=
  run.Ends store (D.Gathers good store) (D.cuts store)

/-- An entry of a hash: a key that an ordinary value has given, and an ordinary value. -/
def Entry (store : Store) (entry : Key × Value) : Prop :=
  (∃ given, D.plain store given ∧ given.key? = some entry.1) ∧ D.plain store entry.2

/-- What a discipline has to withstand in a scope. -/
structure Lawful (scope : Nat) : Prop where
  refl : ∀ store, D.moves store store
  trans : ∀ {first second third}, D.moves first second → D.moves second third → D.moves first third
  stops_after : ∀ {first second third value},
    D.moves first second → D.stops second value third → D.stops first value third
  cuts_after : ∀ {first second third},
    D.moves first second → D.cuts second third → D.cuts first third
  mono : ∀ {first second value}, D.moves first second → D.plain first value → D.plain second value
  atom : ∀ {store value}, value.Atomic → value.kind ≠ .number → D.plain store value
  number : ∀ {store line value literal}, D.inv store → D.fact (.number line value literal) →
    D.plain store (.number value)
  fresh : ∀ {store}, D.inv store →
    D.inv { store with nextId := store.nextId + 1 } ∧
      D.moves store { store with nextId := store.nextId + 1 }
  array : ∀ {store items}, D.inv store → (∀ item ∈ items, D.plain store item) →
    D.plain { store with nextId := store.nextId + 1 } (.array store.nextId items)
  hash : ∀ {store entries}, D.inv store → (∀ entry ∈ entries, D.Entry store entry) →
    D.plain { store with nextId := store.nextId + 1 } (.hash store.nextId entries)
  function : ∀ {store parameters body}, D.inv store → body.Every D.fact →
    D.plain { store with nextId := store.nextId + 1 } (.function store.nextId parameters body scope)
  unary : ∀ {store operator operand value}, D.inv store → D.plain store operand →
    Operator.unary store.nextId operator operand = .ok value →
    D.plain { store with nextId := store.nextId + 1 } value
  binary : ∀ {store operator left right value}, D.inv store → D.plain store left →
    D.plain store right → Operator.binary store.nextId operator left right = .ok value →
    D.plain { store with nextId := store.nextId + 1 } value
  lookup : ∀ {store name value}, D.inv store → store.lookup scope name = some value →
    D.Arrives store value store
  index : ∀ {store subject position value}, D.inv store → D.plain store subject →
    Operator.index subject position = .ok value → D.Arrives store value store
  raise : ∀ {store node line fault}, D.inv store → D.fact node →
    node.Raises (D.plain store) line fault →
    D.stops store (.error store.nextId line fault)
      { store with
        nextId := store.nextId + 1, log := .raised store.nextId line fault :: store.log }
  giveBack : ∀ {store value}, D.inv store → D.plain store value →
    D.stops store (.result store.nextId value)
      { store with nextId := store.nextId + 1, log := .returned store.nextId value :: store.log }
  assign : ∀ {store name value}, D.inv store → D.plain store value → D.assigns name →
    D.inv { store.bind scope name value with log := .bound scope name value :: store.log } ∧
      D.moves store { store.bind scope name value with log := .bound scope name value :: store.log }
  print : ∀ {store} line, D.inv store →
    D.inv { store with log := .printed line :: store.log } ∧
      D.moves store { store with log := .printed line :: store.log }
  builtin : ∀ {store builtin arguments value}, D.inv store →
    (∀ argument ∈ arguments, D.plain store argument) →
    Builtin.apply store.nextId builtin arguments = .ok value →
    D.Arrives store value { store with nextId := store.nextId + 1 }
  cut : ∀ {store}, D.inv store → D.cuts store store
  program : ∀ {store id value after line statements}, D.fact (.program line statements) →
    D.stops store (.result id value) after → D.Arrives store value after

/-- A meaning of calls that keeps to the discipline. -/
def Answers (call : Call) : Prop :=
  ∀ (store : Store) (line : Int) (function : Node) (nodes : List Node) (callee : Value)
    (arguments : List Value), D.inv store → D.fact (.call line function nodes) →
    D.plain store callee → (∀ argument ∈ arguments, D.plain store argument) →
    D.Follows store (call callee arguments line)

variable {D} {call : Call} {scope : Nat} {store : Store}

/-- An ordinary value arrives if it is plain. -/
theorem Arrives.of_plain {value : Value} {after : Store} (ordinary : value.isSignal = false)
    (inv : D.inv after) (moves : D.moves store after) (plain : D.plain after value) :
    D.Arrives store value after := by
  unfold Arrives
  rw [ordinary]
  exact ⟨inv, moves, plain⟩

theorem Arrives.of_stops {value : Value} {after : Store} (signal : value.isSignal = true)
    (stops : D.stops store value after) : D.Arrives store value after := by
  unfold Arrives
  rw [if_pos signal]
  exact stops

theorem Arrives.stops {value : Value} {after : Store} (arrives : D.Arrives store value after)
    (signal : value.isSignal = true) : D.stops store value after := by
  unfold Arrives at arrives
  rwa [if_pos signal] at arrives

theorem Arrives.plain {value : Value} {after : Store} (arrives : D.Arrives store value after)
    (ordinary : ¬value.isSignal = true) :
    D.inv after ∧ D.moves store after ∧ D.plain after value := by
  unfold Arrives at arrives
  rwa [if_neg ordinary] at arrives

/-! ## Rules -/

section Rules

variable (lawful : D.Lawful scope)

include lawful

/-- A run that is started after a move, seen from before the move. -/
theorem Follows.after {middle : Store} {run : Eval Value} (moves : D.moves store middle)
    (follows : D.Follows middle run) : run.Ends middle (D.Arrives store) (D.cuts store) := by
  refine follows.imp ?_ fun _ cut => lawful.cuts_after moves cut
  intro value last arrives
  by_cases signal : value.isSignal = true
  · exact .of_stops signal (lawful.stops_after moves (arrives.stops signal))
  · obtain ⟨inv, further, plain⟩ := arrives.plain signal
    exact .of_plain (by simpa using signal) inv (lawful.trans moves further) plain

theorem Collects.after {γ : Type} {good : Store → γ → Prop} {middle : Store}
    {run : Eval (Except Value γ)} (moves : D.moves store middle)
    (collects : D.Collects good middle run) :
    run.Ends middle (D.Gathers good store) (D.cuts store) := by
  refine collects.imp ?_ fun _ cut => lawful.cuts_after moves cut
  intro collected last h
  cases collected with
  | ok values => exact ⟨h.1, lawful.trans moves h.2.1, h.2.2⟩
  | error signal => exact ⟨h.1, lawful.stops_after moves h.2⟩

theorem follows_pure {value : Value} (inv : D.inv store) (ordinary : value.isSignal = false)
    (plain : D.plain store value) : D.Follows store (pure value) :=
  .of_plain ordinary inv (lawful.refl store) plain

theorem Lawful.null : D.plain store .null :=
  lawful.atom trivial (by simp [Value.kind])

theorem Lawful.entry {first second : Store} {entry : Key × Value} (moves : D.moves first second)
    (made : D.Entry first entry) : D.Entry second entry := by
  obtain ⟨⟨given, plain, key⟩, value⟩ := made
  exact ⟨⟨given, lawful.mono moves plain, key⟩, lawful.mono moves value⟩

theorem follows_atom {value : Value} (inv : D.inv store) (atomic : value.Atomic)
    (other : value.kind ≠ .number) : D.Follows store (pure value) :=
  follows_pure lawful inv atomic.isSignal_eq_false (lawful.atom atomic other)

theorem follows_boolean {b : Bool} (inv : D.inv store) : D.Follows store (pure (.boolean b)) :=
  follows_atom lawful inv trivial (by simp [Value.kind])

theorem follows_raise {node : Node} {line : Int} {fault : Fault} (inv : D.inv store)
    (fact : D.fact node) (raises : node.Raises (D.plain store) line fault) :
    D.Follows store (raise line fault) :=
  .of_stops rfl (lawful.raise inv fact raises)

/-- Going on with the value of a part. -/
theorem follows_andThen {run : Eval Value} {next : Value → Eval Value} (first : D.Follows store run)
    (then_ : ∀ value after, D.inv after → D.moves store after → D.plain after value →
      ¬value.isSignal = true → D.Follows after (next value)) :
    D.Follows store (andThen run next) := by
  unfold Follows
  rw [ends_andThen]
  refine first.imp ?_ fun _ cut => cut
  intro value middle arrives
  split
  case isTrue => exact arrives
  case isFalse ordinary =>
    obtain ⟨inv, moves, plain⟩ := arrives.plain ordinary
    exact (then_ value middle inv moves plain ordinary).after lawful moves

/-- Going on with a new id. -/
theorem follows_fresh {next : Nat → Eval Value} (inv : D.inv store)
    (then_ : D.inv { store with nextId := store.nextId + 1 } →
      D.moves store { store with nextId := store.nextId + 1 } →
      D.Follows { store with nextId := store.nextId + 1 } (next store.nextId)) :
    D.Follows store (fresh >>= next) := by
  unfold Follows
  rw [ends_bind, ends_fresh]
  have counted := lawful.fresh inv
  exact (then_ counted.1 counted.2).after lawful counted.2

/-- Going on with what a row of parts gives. -/
theorem follows_collected {γ : Type} {good : Store → γ → Prop} {run : Eval (Except Value γ)}
    {next : Except Value γ → Eval Value} (first : D.Collects good store run)
    (passes : ∀ signal, next (.error signal) = pure signal)
    (then_ : ∀ values after, D.inv after → D.moves store after → good after values →
      D.Follows after (next (.ok values))) : D.Follows store (run >>= next) := by
  unfold Follows
  rw [ends_bind]
  refine first.imp ?_ fun _ cut => cut
  intro collected middle h
  cases collected with
  | ok values => exact (then_ values middle h.1 h.2.1 h.2.2).after lawful h.2.1
  | error signal =>
      rw [passes]
      exact .of_stops h.1 h.2

/-- Going on with the value of a part while collecting. -/
theorem collects_bind {γ : Type} {good : Store → γ → Prop} {run : Eval Value}
    {next : Value → Eval (Except Value γ)} (first : D.Follows store run)
    (passes : ∀ signal : Value, signal.isSignal = true → next signal = pure (.error signal))
    (then_ : ∀ value after, D.inv after → D.moves store after → D.plain after value →
      ¬value.isSignal = true → D.Collects good after (next value)) :
    D.Collects good store (run >>= next) := by
  unfold Collects
  rw [ends_bind]
  refine first.imp ?_ fun _ cut => cut
  intro value middle arrives
  by_cases signal : value.isSignal = true
  · rw [passes value signal]
    exact ⟨signal, arrives.stops signal⟩
  · obtain ⟨inv, moves, plain⟩ := arrives.plain signal
    exact (then_ value middle inv moves plain signal).after lawful moves

/-! ## Rows of trees -/

theorem collects_evalEach {nodes : List Node} (inv : D.inv store)
    (each : ∀ node ∈ nodes, ∀ store, D.inv store → D.Follows store (node.eval call scope)) :
    D.Collects (fun after values => ∀ value ∈ values, D.plain after value) store
      (evalEach call scope nodes) := by
  induction nodes generalizing store with
  | nil => exact ⟨inv, lawful.refl store, by simp⟩
  | cons node more ih =>
      rw [evalEach]
      refine collects_bind lawful (each node List.mem_cons_self store inv) ?_ ?_
      · intro signal isSignal
        rw [if_pos isSignal]
      · intro value middle inv moves plain ordinary
        rw [if_neg ordinary]
        have rest := ih inv fun other member => each other (List.mem_cons_of_mem _ member)
        unfold Collects
        rw [ends_bind]
        refine rest.imp ?_ fun _ cut => cut
        intro collected last h
        cases collected with
        | error signal => exact h
        | ok values =>
            refine ⟨h.1, h.2.1, fun other member => ?_⟩
            rcases List.mem_cons.mp member with rfl | inside
            · exact lawful.mono h.2.1 plain
            · exact h.2.2 other inside

theorem collects_evalEntries {entries all : List (Node × Node)} {done : Entries} {line : Int}
    (inv : D.inv store) (fact : D.fact (.hash line all)) (sub : ∀ entry ∈ entries, entry ∈ all)
    (plainDone : ∀ entry ∈ done, D.Entry store entry)
    (each : ∀ entry ∈ entries, ∀ store, D.inv store →
      D.Follows store (entry.1.eval call scope) ∧ D.Follows store (entry.2.eval call scope)) :
    D.Collects (fun after made => ∀ entry ∈ made, D.Entry after entry) store
      (evalEntries call scope done entries) := by
  induction entries generalizing store done with
  | nil => exact ⟨inv, lawful.refl store, plainDone⟩
  | cons entry more ih =>
      obtain ⟨keyNode, valueNode⟩ := entry
      have here := each (keyNode, valueNode) List.mem_cons_self
      rw [evalEntries]
      refine collects_bind lawful (here store inv).1 ?_ ?_
      · intro signal isSignal
        rw [if_pos isSignal]
      intro key middle inv moves plainKey ordinary
      rw [if_neg ordinary]
      split
      case h_1 unusable =>
        unfold Collects
        rw [ends_bind, ends_raise]
        have member := sub (keyNode, valueNode) List.mem_cons_self
        exact ⟨rfl, lawful.raise inv fact (.key member plainKey unusable)⟩
      case h_2 found usable =>
        refine collects_bind lawful (here middle inv).2 ?_ ?_
        · intro signal isSignal
          rw [if_pos isSignal]
        intro value last inv further plain ordinary
        rw [if_neg ordinary]
        refine ih inv (fun other member => sub other (List.mem_cons_of_mem _ member)) ?_
          fun other member => each other (List.mem_cons_of_mem _ member)
        intro entry member
        rcases Entries.mem_insert member with rfl | before
        · exact ⟨⟨key, lawful.mono further plainKey, usable⟩, plain⟩
        · exact lawful.entry (lawful.trans moves further) (plainDone entry before)

theorem follows_evalStatements {statements : List Node} {last : Value} (inv : D.inv store)
    (ordinary : last.isSignal = false) (plain : D.plain store last)
    (each : ∀ node ∈ statements, ∀ store, D.inv store → D.Follows store (node.eval call scope)) :
    D.Follows store (evalStatements call scope last statements) := by
  induction statements generalizing store last with
  | nil => exact follows_pure lawful inv ordinary plain
  | cons node more ih =>
      rw [evalStatements]
      refine follows_andThen lawful (each node List.mem_cons_self store inv) ?_
      intro value after inv moves plain ordinary
      exact ih inv (by simpa using ordinary) plain
        fun other member => each other (List.mem_cons_of_mem _ member)

end Rules

/-! ## Trees -/

/-- Running a tree keeps to every lawful discipline that knows what the tree is made of and which names
it binds. -/
theorem eval_follows (lawful : D.Lawful scope) (answers : D.Answers call) (node : Node)
    (every : node.Every D.fact) (assigns : ∀ name, node.Assigns name → D.assigns name)
    (store : Store) (inv : D.inv store) : D.Follows store (node.eval call scope) := by
  induction node using Node.child_induction generalizing store with
  | step node ih =>
    have fact := every.here
    -- Away from function literals, a child assigns nothing that its parent does not assign.
    have below (open_ : ∀ line parameters body, node ≠ .function line parameters body) :
        ∀ child ∈ node.children, ∀ store, D.inv store →
          D.Follows store (child.eval call scope) := by
      intro child member
      refine ih child member (every.child member) fun name inside => ?_
      exact assigns name (.inside member open_ inside)
    cases node with
    | missing => exact follows_raise lawful inv fact .missing
    | bare line => exact follows_raise lawful inv fact .bare
    | number line value literal => exact follows_pure lawful inv rfl (lawful.number inv fact)
    | text line value => exact follows_atom lawful inv trivial (by simp [Value.kind])
    | boolean line value => exact follows_boolean lawful inv
    | identifier line name =>
        unfold Follows
        rw [Node.eval, ends_bind, ends_get]
        split
        case h_1 value found => exact lawful.lookup inv found
        case h_2 =>
          split
          case h_1 => exact follows_atom lawful inv trivial (by simp [Value.kind])
          case h_2 unknown => exact follows_raise lawful inv fact (.identifier unknown)
    | unary line operator operand =>
        have below := below (by simp)
        rw [Node.eval]
        refine follows_andThen lawful (below operand (by simp [Node.children]) store inv) ?_
        intro value after inv _ plain _
        refine follows_fresh lawful inv fun counted moves => ?_
        cases outcome : Operator.unary after.nextId operator value with
        | ok made =>
            exact follows_pure lawful counted (Operator.unary_atomic outcome).isSignal_eq_false
              (lawful.unary inv plain outcome)
        | error fault =>
            exact follows_raise lawful counted fact (.unary (lawful.mono moves plain) outcome)
    | binary line left operator right =>
        have below := below (by simp)
        rw [Node.eval]
        refine follows_andThen lawful (below left (by simp [Node.children]) store inv) ?_
        intro a first inv _ plainA _
        refine follows_andThen lawful (below right (by simp [Node.children]) first inv) ?_
        intro b second inv moves plainB _
        have plainA := lawful.mono moves plainA
        refine follows_fresh lawful inv fun counted further => ?_
        cases outcome : Operator.binary second.nextId operator a b with
        | ok made =>
            exact follows_pure lawful counted (Operator.binary_atomic outcome).isSignal_eq_false
              (lawful.binary inv plainA plainB outcome)
        | error fault =>
            exact follows_raise lawful counted fact
              (.binary (lawful.mono further plainA) (lawful.mono further plainB) outcome)
    | logical line left operator right =>
        have below := below (by simp)
        rw [Node.eval]
        refine follows_andThen lawful (below left (by simp [Node.children]) store inv) ?_
        intro a first inv _ _ _
        split
        · exact follows_boolean lawful inv
        split
        · exact follows_boolean lawful inv
        · refine follows_andThen lawful (below right (by simp [Node.children]) first inv) ?_
          intro b second inv _ _ _
          exact follows_boolean lawful inv
    | conditional line condition consequence alternative =>
        have below := below (by simp)
        cases alternative with
        | none =>
            rw [Node.eval]
            refine follows_andThen lawful (below condition (by simp [Node.children]) store inv) ?_
            intro value after inv _ _ _
            split
            · exact below consequence (by simp [Node.children]) after inv
            · exact follows_pure lawful inv rfl lawful.null
        | some alternative =>
            rw [Node.eval]
            refine follows_andThen lawful (below condition (by simp [Node.children]) store inv) ?_
            intro value after inv _ _ _
            split
            · exact below consequence (by simp [Node.children]) after inv
            · exact below alternative (by simp [Node.children]) after inv
    | function line parameters body =>
        rw [Node.eval]
        have every : body.Every D.fact := every.child (by simp [Node.children])
        refine follows_fresh lawful inv fun counted _ => ?_
        exact follows_pure lawful counted rfl (lawful.function inv every)
    | call line callee arguments =>
        have below := below (by simp)
        rw [Node.eval]
        refine follows_andThen lawful (below callee (by simp [Node.children]) store inv) ?_
        intro function first inv _ plain _
        refine follows_collected lawful (collects_evalEach lawful inv fun node member =>
          below node (by simp [Node.children, member])) (fun _ => rfl) ?_
        intro values second inv moves plainValues
        exact answers second line _ _ function values inv fact (lawful.mono moves plain) plainValues
    | array line items =>
        have below := below (by simp)
        rw [Node.eval]
        refine follows_collected lawful (collects_evalEach lawful inv below) (fun _ => rfl) ?_
        intro values after inv _ plain
        refine follows_fresh lawful inv fun counted _ => ?_
        exact follows_pure lawful counted rfl (lawful.array inv plain)
    | index line subject position =>
        have below := below (by simp)
        rw [Node.eval]
        refine follows_andThen lawful (below subject (by simp [Node.children]) store inv) ?_
        intro a first inv _ plainA _
        refine follows_andThen lawful (below position (by simp [Node.children]) first inv) ?_
        intro b second inv moves plainB _
        have plainA := lawful.mono moves plainA
        cases outcome : Operator.index a b with
        | ok value => exact lawful.index inv plainA outcome
        | error fault => exact follows_raise lawful inv fact (.index plainA plainB outcome)
    | hash line entries =>
        have below := below (by simp)
        rw [Node.eval]
        refine follows_collected lawful (collects_evalEntries lawful inv fact (fun _ h => h) (by simp)
          fun entry member store inv => ?_) (fun _ => rfl) ?_
        · have halves := Node.mem_children_hash line member
          exact ⟨below _ halves.1 store inv, below _ halves.2 store inv⟩
        · intro made after inv _ plain
          refine follows_fresh lawful inv fun counted _ => ?_
          exact follows_pure lawful counted rfl (lawful.hash inv plain)
    | binding line name value =>
        have below := below (by simp)
        rw [Node.eval]
        refine follows_andThen lawful (below value (by simp [Node.children]) store inv) ?_
        intro value after inv _ plain _
        have bound := lawful.assign inv plain (assigns name.text .here)
        unfold Follows
        rw [ends_bind, ends_assign]
        exact .of_plain rfl bound.1 bound.2 lawful.null
    | result line value =>
        cases value with
        | none => exact .of_stops rfl (lawful.giveBack inv lawful.null)
        | some value =>
            have below := below (by simp)
            rw [Node.eval]
            refine follows_andThen lawful (below value (by simp [Node.children]) store inv) ?_
            intro value after inv _ plain _
            exact .of_stops rfl (lawful.giveBack inv plain)
    | expression line inner => exact below (by simp) inner (by simp [Node.children]) store inv
    | block line statements =>
        exact follows_evalStatements lawful inv rfl lawful.null (below (by simp))
    | program line statements =>
        have run : D.Follows store (evalStatements call scope .null statements) :=
          follows_evalStatements lawful inv rfl lawful.null (below (by simp))
        unfold Follows
        rw [Node.eval, ends_bind]
        refine run.imp ?_ fun _ cut => cut
        intro value after arrives
        cases value with
        | result id inner => exact lawful.program fact (arrives.stops rfl)
        | _ => exact arrives

/-- So does running a list of statements. -/
theorem statements_follow (lawful : D.Lawful scope) (answers : D.Answers call)
    (statements : List Node) (every : ∀ statement ∈ statements, statement.Every D.fact)
    (assigns : ∀ statement ∈ statements, ∀ name, statement.Assigns name → D.assigns name)
    (store : Store) (inv : D.inv store) :
    D.Follows store (evalStatements call scope .null statements) := by
  refine follows_evalStatements lawful inv rfl lawful.null ?_
  intro statement member
  exact eval_follows lawful answers statement (every statement member) (assigns statement member)

/-! ## Calls -/

section Calls

variable (lawful : D.Lawful scope)

include lawful

theorem ends_printAll (lines : List String) (inv : D.inv store) :
    (printAll lines).Ends store (fun _ after => D.inv after ∧ D.moves store after)
      (D.cuts store) := by
  induction lines generalizing store with
  | nil => exact ⟨inv, lawful.refl store⟩
  | cons line lines ih =>
      obtain ⟨printed, moves⟩ := lawful.print line inv
      rw [printAll, ends_bind, ends_record]
      refine (ih printed).imp ?_ fun _ cut => lawful.cuts_after moves cut
      intro _ after h
      exact ⟨h.1, lawful.trans moves h.2⟩

theorem ends_assignAll (names : List Name) (values : List Value) (inv : D.inv store)
    (plain : ∀ value ∈ values, D.plain store value)
    (assigns : ∀ name ∈ names, D.assigns name.text) :
    (assignAll scope names values).Ends store (fun _ after => D.inv after ∧ D.moves store after)
      (D.cuts store) := by
  induction names generalizing values store with
  | nil => exact ⟨inv, lawful.refl store⟩
  | cons name names ih =>
      cases values with
      | nil => exact ⟨inv, lawful.refl store⟩
      | cons value values =>
          obtain ⟨bound, moves⟩ := lawful.assign inv (plain value (by simp))
            (assigns name (by simp))
          rw [assignAll, ends_bind, ends_assign]
          refine (ih values bound ?_ ?_).imp ?_ fun _ cut => lawful.cuts_after moves cut
          · intro other member
            exact lawful.mono moves (plain other (List.mem_cons_of_mem _ member))
          · intro other member
            exact assigns other (List.mem_cons_of_mem _ member)
          · intro _ after h
            exact ⟨h.1, lawful.trans moves h.2⟩

/-- A call keeps to the discipline if it does so when it comes to running the body of a function. -/
theorem apply_follows {depth : Nat} {callee : Value} {arguments : List Value} {line : Int}
    {function : Node} {nodes : List Node} (inv : D.inv store)
    (fact : D.fact (.call line function nodes)) (plainCallee : D.plain store callee)
    (plain : ∀ argument ∈ arguments, D.plain store argument)
    (body : ∀ id parameters body home rest, callee = .function id parameters body home →
      depth = rest + 1 → arguments.length = parameters.length →
      D.Follows store (apply (rest + 1) (.function id parameters body home) arguments line)) :
    D.Follows store (apply depth callee arguments line) := by
  cases callee with
  | function id parameters tree home =>
      by_cases matching : arguments.length = parameters.length
      · cases depth with
        | zero =>
            unfold Follows apply
            dsimp only
            rw [if_neg (by simpa using matching), ends_throw]
            exact lawful.cut inv
        | succ rest => exact body id parameters tree home rest rfl rfl matching
      · unfold apply
        dsimp only
        rw [if_pos matching]
        exact follows_raise lawful inv fact (.call plainCallee plain (.arity matching))
  | builtin builtin =>
      unfold Follows apply
      rw [ends_bind]
      refine (ends_printAll lawful _ inv).imp ?_ fun _ cut => cut
      rintro _ printed ⟨inv, moves⟩
      have plain : ∀ argument ∈ arguments, D.plain printed argument :=
        fun argument member => lawful.mono moves (plain argument member)
      refine Follows.after lawful moves ?_
      unfold Follows
      rw [ends_bind, ends_fresh]
      cases outcome : Builtin.apply printed.nextId builtin arguments with
      | ok value => exact lawful.builtin inv plain outcome
      | error fault =>
          obtain ⟨counted, further⟩ := lawful.fresh inv
          refine Follows.after lawful further (follows_raise lawful counted fact ?_)
          refine .call (lawful.mono further (lawful.mono moves plainCallee)) ?_ (.builtin outcome)
          exact fun argument member => lawful.mono further (plain argument member)
  | _ =>
      unfold apply
      exact follows_raise lawful inv fact
        (.call plainCallee plain (.other (by simp [Value.kind]) (by simp [Value.kind])))

end Calls

/-- A call of a function ends as running its body in the scope that is made for it lets it end. What is
followed there need not be what is followed around the call. -/
theorem ends_apply_of_body {rest id home : Nat} {parameters : List Name} {body : Node}
    {arguments : List Value} {line : Int} {done : Value → Store → Prop} {cut : Store → Prop}
    (lawful : D.Lawful store.scopes.size) (answers : D.Answers (apply rest)) (every : body.Every D.fact)
    (assigns : ∀ name, D.assigns name) (matching : arguments.length = parameters.length)
    {opened : Store} (isOpened : opened =
      { store.addScope (some home) with log := .opened store.scopes.size home :: store.log })
    (inv : D.inv opened) (plain : ∀ argument ∈ arguments, D.plain opened argument)
    (leaves : ∀ value left, D.Arrives opened value left →
      done value.unwrapped
        { left with log := .closed store.scopes.size value.unwrapped :: left.log })
    (stops : ∀ left, D.cuts opened left → cut left) :
    (apply (rest + 1) (.function id parameters body home) arguments line).Ends store done cut := by
  subst isOpened
  rw [ends_apply_function matching]
  refine (ends_assignAll lawful parameters arguments inv plain fun name _ => assigns name.text).imp ?_
    stops
  rintro _ entered ⟨inv, moves⟩
  have run := eval_follows lawful answers body every (fun name _ => assigns name) entered inv
  exact (Follows.after lawful moves run).imp leaves stops

end Discipline

end Treewalk

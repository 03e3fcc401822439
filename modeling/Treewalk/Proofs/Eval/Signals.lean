import Treewalk.Proofs.Eval.Discipline
import Treewalk.Proofs.Reader.Exact
import Treewalk.Proofs.Store.Scopes
import Treewalk.Proofs.Value.Plain
import Treewalk.Session

/-!
# Signals are never data

A `return` and an error travel as values, so every place that stores a value has to look at it first.
The invariant is `Store.Clean`: all bindings of all scopes are plain, and so is everything that the log
tells of. `Node.eval_clean` shows that running any tree keeps it, whether the run gives a value or is
cut short, and `apply_clean` the same of calls; `Session.clean_after` carries it through a session.

The fact about trees that plain values carry is left open. A tree at every place of which it holds
leaves a store in which it still holds of all functions.
-/

namespace Treewalk

open Eval

variable {fact : Node → Prop}

/-! ## The invariant -/

/-- An event that tells of plain values only; the value that a call gives may be an error. -/
def Event.Clean (fact : Node → Prop) : Event → Prop
  | .bound _ _ value | .returned _ value => value.Plain fact
  | .closed _ value => value.Settled fact
  | _ => True

/-- No signal is stored anywhere, and no value that was bound or given back was one. -/
structure Store.Clean (fact : Node → Prop) (store : Store) : Prop where
  bindings : ∀ scope, ∀ binding ∈ store.bindings scope, binding.2.Plain fact
  events : ∀ event ∈ store.log, event.Clean fact

namespace Store.Clean

variable {store : Store}

theorem renumber (clean : store.Clean fact) (id : Nat) :
    ({ store with nextId := id } : Store).Clean fact :=
  ⟨clean.bindings, clean.events⟩

theorem forget (clean : store.Clean fact) : ({ store with log := [] } : Store).Clean fact :=
  ⟨clean.bindings, by simp⟩

theorem note (clean : store.Clean fact) (event : Event) (cleanEvent : event.Clean fact) :
    ({ store with log := event :: store.log } : Store).Clean fact := by
  refine ⟨clean.bindings, ?_⟩
  intro other member
  rcases List.mem_cons.mp member with rfl | inside
  · exact cleanEvent
  · exact clean.events other inside

theorem raised (clean : store.Clean fact) (line : Int) (fault : Fault) :
    ({ store with
      nextId := store.nextId + 1,
      log := .raised store.nextId line fault :: store.log } : Store).Clean fact :=
  (clean.renumber (store.nextId + 1)).note (.raised store.nextId line fault) trivial

theorem bind (clean : store.Clean fact) (scope : Nat) (name : String) {value : Value}
    (plain : value.Plain fact) : (store.bind scope name value).Clean fact := by
  refine ⟨?_, clean.events⟩
  intro i binding member
  rcases Store.mem_bindings_bind member with same | before
  · rw [same]
    exact plain
  · exact clean.bindings i binding before

theorem addScope (clean : store.Clean fact) (outer : Option Nat) :
    (store.addScope outer).Clean fact := by
  refine ⟨?_, clean.events⟩
  intro i binding member
  rw [Store.bindings_addScope] at member
  exact clean.bindings i binding member

theorem lookup (clean : store.Clean fact) {scope : Nat} {name : String} {value : Value}
    (found : store.lookup scope name = some value) : value.Plain fact := by
  obtain ⟨i, member⟩ := Store.mem_of_lookup found
  exact clean.bindings i _ member

end Store.Clean

theorem Store.clean_empty : Store.empty.Clean fact :=
  ⟨by simp [Store.bindings, Store.empty], by simp [Store.empty]⟩

/-! ## Runs keep it -/

/-- Stores stay clean, and ordinary values are plain. -/
def Discipline.signalFree (fact : Node → Prop) : Discipline where
  inv := Store.Clean fact
  moves _ _ := True
  plain _ value := value.Plain fact
  stops _ value after := after.Clean fact ∧ value.Proper fact
  cuts _ after := after.Clean fact
  fact := fact
  assigns _ := True

namespace Discipline

theorem arrives_of_proper {store after : Store} {value : Value} (clean : after.Clean fact)
    (proper : value.Proper fact) : (signalFree fact).Arrives store value after := by
  cases signal : value.isSignal with
  | true => exact .of_stops signal ⟨clean, proper⟩
  | false => exact .of_plain signal clean trivial (proper.plain signal)

theorem Arrives.clean {store after : Store} {value : Value}
    (arrives : (signalFree fact).Arrives store value after) :
    after.Clean fact ∧ value.Proper fact := by
  by_cases signal : value.isSignal = true
  · exact arrives.stops signal
  · obtain ⟨clean, _, plain⟩ := arrives.plain signal
    exact ⟨clean, Value.Plain.proper plain⟩

theorem signalFree_lawful (scope : Nat) : (signalFree fact).Lawful scope where
  refl _ := trivial
  trans _ _ := trivial
  stops_after _ stops := stops
  cuts_after _ cut := cut
  mono _ plain := plain
  atom atomic _ := atomic.plain
  number _ _ := .number
  fresh clean := ⟨clean.renumber _, trivial⟩
  array _ plain := .array plain
  hash _ made := .hash fun entry member => (made entry member).2
  function _ every := .function every
  unary _ _ given := (Operator.unary_atomic given).plain
  binary _ _ _ given := (Operator.binary_atomic given).plain
  lookup clean found := arrives_of_proper clean (clean.lookup found).proper
  index clean plain given := by
    rcases Operator.index_part given with rfl | part
    · exact arrives_of_proper clean Value.Plain.null.proper
    · exact arrives_of_proper clean (Value.Plain.parts plain part).proper
  raise clean _ _ := ⟨clean.raised _ _, trivial⟩
  giveBack {store value} clean plain :=
    ⟨(clean.renumber (store.nextId + 1)).note (.returned store.nextId value) plain, plain⟩
  assign clean plain _ := ⟨(clean.bind _ _ plain).note (.bound ..) plain, trivial⟩
  print line clean := ⟨clean.note (.printed line) trivial, trivial⟩
  builtin clean plain given := by
    have made := Value.plain_of_makes plain (Builtin.apply_makes given)
    exact arrives_of_proper (clean.renumber _) made.proper
  cut clean := clean
  program _ stops := arrives_of_proper stops.1 (Value.Plain.proper stops.2)

end Discipline

open Discipline

/-- Running a tree leaves a clean store if calls do, and gives a plain value, an error, or a plain value
on its way back. -/
theorem Node.eval_clean_of_answers {call : Call} (answers : (signalFree fact).Answers call)
    (scope : Nat) {node : Node} {store : Store} (every : node.Every fact) (clean : store.Clean fact) :
    (node.eval call scope).Ends store (fun value after => after.Clean fact ∧ value.Proper fact)
      (Store.Clean fact) := by
  have follows := eval_follows (signalFree_lawful scope) answers node every (fun _ _ => trivial)
    store clean
  exact follows.imp (fun _ _ arrives => arrives.clean) fun _ cut => cut

/-- A call leaves a clean store and gives a plain value or an error, if running the body of the called
function keeps stores clean one level of calls further down. -/
theorem apply_clean_of_body (depth : Nat) (callee : Value) {arguments : List Value} (line : Int)
    {store : Store} (clean : store.Clean fact)
    (plain : ∀ argument ∈ arguments, argument.Plain fact)
    (body : ∀ id parameters body home rest, callee = .function id parameters body home →
      depth = rest + 1 → ∀ entered : Store, entered.Clean fact →
      (body.eval (apply rest) store.scopes.size).Ends entered
        (fun value after => after.Clean fact ∧ value.Proper fact) (Store.Clean fact)) :
    (apply depth callee arguments line).Ends store
      (fun value after => after.Clean fact ∧ value.Settled fact) (Store.Clean fact) := by
  have lawful : (signalFree fact).Lawful store.scopes.size := signalFree_lawful _
  have raised (fault : Fault) : (raise line fault).Ends store
      (fun value after => after.Clean fact ∧ value.Settled fact) (Store.Clean fact) :=
    ⟨clean.raised line fault, trivial, by simp [Value.kind]⟩
  cases callee with
  | function id parameters tree home =>
      by_cases matching : arguments.length = parameters.length
      · cases depth with
        | zero =>
            unfold apply
            dsimp only
            rw [if_neg (by simpa using matching), ends_throw]
            exact clean
        | succ rest =>
            have opened := (clean.addScope (some home)).note (.opened store.scopes.size home) trivial
            rw [ends_apply_function matching]
            refine (ends_assignAll lawful parameters arguments opened plain (fun _ _ => trivial)).imp
              ?_ fun _ cut => cut
            rintro _ entered ⟨clean, _⟩
            refine (body id parameters tree home rest rfl rfl entered clean).imp ?_ fun _ cut => cut
            rintro value left ⟨clean, proper⟩
            exact ⟨clean.note (.closed _ _) proper.unwrapped, proper.unwrapped⟩
      · unfold apply
        dsimp only
        rw [if_pos matching]
        exact raised _
  | builtin builtin =>
      unfold apply
      rw [ends_bind]
      refine (ends_printAll lawful _ clean).imp ?_ fun _ cut => cut
      rintro _ printed ⟨clean, _⟩
      rw [ends_bind, ends_fresh]
      have counted := clean.renumber (printed.nextId + 1)
      cases outcome : Builtin.apply printed.nextId builtin arguments with
      | ok value =>
          exact ⟨counted, (Value.plain_of_makes plain (Builtin.apply_makes outcome)).settled⟩
      | error fault => exact ⟨counted.raised line fault, trivial, by simp [Value.kind]⟩
  | _ =>
      unfold apply
      exact raised _

/-- Calls keep stores clean; the induction is on how many calls may be nested. -/
theorem signalFree_answers (depth : Nat) : (signalFree fact).Answers (apply depth) := by
  induction depth with
  | zero =>
      intro store line function nodes callee arguments clean _ _ plain
      refine (apply_clean_of_body 0 callee line clean plain (by simp)).imp ?_ fun _ cut => cut
      exact fun value after h => arrives_of_proper h.1 h.2.1
  | succ depth ih =>
      intro store line function nodes callee arguments clean _ plainCallee plain
      refine (apply_clean_of_body (depth + 1) callee line clean plain ?_).imp ?_ fun _ cut => cut
      · intro id parameters body home rest isFunction sameDepth entered clean
        subst isFunction
        cases sameDepth
        exact Node.eval_clean_of_answers ih _ (Value.Plain.body plainCallee) clean
      · exact fun value after h => arrives_of_proper h.1 h.2.1

/-- Running a tree keeps stores clean. -/
theorem Node.eval_clean (depth scope : Nat) {node : Node} {store : Store} (every : node.Every fact)
    (clean : store.Clean fact) :
    (node.eval (apply depth) scope).Ends store
      (fun value after => after.Clean fact ∧ value.Proper fact) (Store.Clean fact) :=
  Node.eval_clean_of_answers (signalFree_answers depth) scope every clean

/-- A call with plain arguments, whatever is called, leaves a clean store and gives a plain value or an
error. -/
theorem apply_clean (depth : Nat) (callee : Value) {arguments : List Value} (line : Int)
    {store : Store}
    (bodies : ∀ id parameters body home, callee = .function id parameters body home → body.Every fact)
    (clean : store.Clean fact) (plain : ∀ argument ∈ arguments, argument.Plain fact) :
    (apply depth callee arguments line).Ends store
      (fun value after => after.Clean fact ∧ value.Settled fact) (Store.Clean fact) := by
  refine apply_clean_of_body depth callee line clean plain ?_
  intro id parameters body home rest isFunction _ entered clean
  exact Node.eval_clean rest _ (bodies id parameters body home isFunction) clean

/-- A program leaves a clean store and gives a plain value or an error. -/
theorem Node.eval_program_clean (depth scope : Nat) (line : Int) {statements : List Node}
    {store : Store} (every : ∀ node ∈ statements, node.Every fact) (clean : store.Clean fact) :
    ((Node.program line statements).eval (apply depth) scope).Ends store
      (fun value after => after.Clean fact ∧ value.Settled fact) (Store.Clean fact) := by
  have run := statements_follow (signalFree_lawful scope) (signalFree_answers depth) statements every
    (fun _ _ _ _ => trivial) store clean
  rw [Node.eval, ends_bind]
  refine run.imp ?_ fun _ cut => cut
  intro value after arrives
  exact ⟨arrives.clean.1, arrives.clean.2.unwrapped⟩

/-! ## Sessions -/

namespace Session

/-- The session after sources were run in it one after another, each with its own bound on nested
calls. -/
def after (session : Session) (steps : List (Nat × String)) : Session :=
  steps.foldl (fun session step => (session.eval step.1 step.2).2) session

/-- What holds at the end of a piece that is run in a session. -/
theorem run_ends {session : Session} {piece : Eval Value} {done : Value → Store → Prop}
    {cut : Store → Prop} (ends : piece.Ends { session.store with log := [] } done cut) :
    (∃ value, (session.run piece).1 = .value value ∧ done value (session.run piece).2.store) ∨
      (∃ reason, (session.run piece).1 = .cut reason) ∧ cut (session.run piece).2.store := by
  unfold Eval.Ends at ends
  unfold run
  split at ends
  case h_1 value after given =>
    rw [given]
    exact .inl ⟨value, rfl, ends⟩
  case h_2 reason after given =>
    rw [given]
    exact .inr ⟨⟨reason, rfl⟩, ends⟩

/-- What running a source does to a clean store, and what it gives. A source that cannot be read
leaves the bindings alone. -/
theorem clean_eval {session : Session} {depth : Nat} {source : String} (readable : Readable fact)
    (clean : session.store.Clean fact) :
    (session.eval depth source).2.store.Clean fact ∧
      ∀ value, (session.eval depth source).1 = .value value → value.Settled fact := by
  unfold eval
  split
  case h_1 program read =>
    obtain ⟨line, statements, rfl, -⟩ := exists_program_of_parse read
    have every := readable source line statements read
    rcases run_ends (Node.eval_program_clean depth session.root line every clean.forget) with
      ⟨given, same, clean, settled⟩ | ⟨⟨reason, cut⟩, clean⟩
    · refine ⟨clean, fun value outcome => ?_⟩
      rw [evalNode, same] at outcome
      cases outcome
      exact settled
    · refine ⟨clean, fun value outcome => ?_⟩
      rw [evalNode, cut] at outcome
      cases outcome
  case h_2 => exact ⟨clean.forget, nofun⟩

/-- A whole session. -/
theorem clean_after {session : Session} (steps : List (Nat × String)) (readable : Readable fact)
    (clean : session.store.Clean fact) : (session.after steps).store.Clean fact := by
  induction steps generalizing session with
  | nil => exact clean
  | cons step more ih => exact ih (clean_eval readable clean).1

theorem clean_new : new.store.Clean fact :=
  Store.clean_empty.addScope none

end Session

/-! ## Signals and data -/

/-- Signals never become data. A session that starts without a signal in its store never gets one
there, whatever sources are run in it and however the runs end, and no source gives a value that is on
its way back. The same holds of any tree and of any call with ordinary arguments: in a clean store they
leave a clean store, and what is on its way back is plain. -/
theorem signals_are_never_data (session : Session) (clean : session.store.Clean fun _ => True) :
    (∀ steps : List (Nat × String), (session.after steps).store.Clean (fun _ => True) ∧
      ∀ depth source value, ((session.after steps).eval depth source).1 = .value value →
        value.Settled fun _ => True) ∧
    (∀ (depth scope : Nat) (node : Node) (store : Store), store.Clean (fun _ => True) →
      (node.eval (apply depth) scope).Ends store
        (fun value after => after.Clean (fun _ => True) ∧ value.Proper (fun _ => True) ∧
          ∀ line statements, node = .program line statements → value.kind ≠ .result)
        (Store.Clean fun _ => True)) ∧
    (∀ (depth : Nat) (callee : Value) (arguments : List Value) (line : Int) (store : Store),
      store.Clean (fun _ => True) → (∀ argument ∈ arguments, argument.Plain fun _ => True) →
      (apply depth callee arguments line).Ends store
        (fun value after => after.Clean (fun _ => True) ∧ value.Settled fun _ => True)
        (Store.Clean fun _ => True)) := by
  have every (node : Node) : node.Every fun _ => True := Node.every_of_forall (fun _ => trivial) node
  refine ⟨?_, ?_, ?_⟩
  · intro steps
    have readable : Readable fun _ => True := fun _ _ _ _ node _ => every node
    have kept := Session.clean_after steps readable clean
    exact ⟨kept, fun depth source => (Session.clean_eval readable kept).2⟩
  · intro depth scope node store clean
    cases node with
    | program line statements =>
        refine (Node.eval_program_clean depth scope line (fun node _ => every node) clean).imp ?_
          fun _ cut => cut
        intro value after ⟨clean, proper, ordinary⟩
        exact ⟨clean, proper, fun _ _ _ => ordinary⟩
    | _ =>
        refine (Node.eval_clean depth scope (every _) clean).imp ?_ fun _ cut => cut
        intro value after ⟨clean, proper⟩
        exact ⟨clean, proper, by simp⟩
  · intro depth callee arguments line store clean plain
    exact apply_clean depth callee line (fun _ _ body _ _ => every body) clean plain

/-- A `return` among the items of an array, an error among arguments, a call that is cut short and a
source that cannot be read, in a new session. -/
theorem signals_are_never_data_new :
    (Session.new.store.Clean fun _ => True) ∧
      (Session.new.after
        [(9, "let f = fn() \x7b let a = [1, if true \x7b return 2 \x7d]; a \x7d; let b = f();"),
          (9, "let c = puts(b, missing);"), (0, "let d = f();"), (9, "let = 3")]).store.Clean
        fun _ => True :=
  ⟨Session.clean_new, ((signals_are_never_data Session.new Session.clean_new).1 _).1⟩

end Treewalk

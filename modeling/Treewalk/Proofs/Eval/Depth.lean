import Treewalk.Proofs.Eval.Ends
import Treewalk.Proofs.Store.Scopes
import Treewalk.Proofs.Tree.Subtree
import Treewalk.Session

/-!
# A bound on nested calls only cuts

What is recorded on the log is enough to tell every state that a run went through: `Store.replay` does
the events over again. A run leads from a store to another if the second is the first with the events
done that are new on its log (`Store.Leads`).

`Outlasts long short` compares a run with the same run under a lower bound. Either the short run ends as
the long one does, or it is cut at a point that the long run goes through. Effects and sequences keep to
this, so trees do (`Node.eval_outlasts`), and calls by induction on the bound (`apply_outlasts`).
-/

namespace Treewalk

open Eval

/-! ## Doing events over again -/

/-- A store after something that a run did. -/
def Event.redo (store : Store) : Event → Store
  | .bound scope name value => store.bind scope name value
  | .opened _ home => store.addScope (some home)
  | _ => store

namespace Store

/-- A store after all that a run did, the latest event first. -/
def replay (store : Store) (events : List Event) : Store :=
  events.foldr (fun event before => event.redo before) store

theorem replay_cons (store : Store) (event : Event) (events : List Event) :
    store.replay (event :: events) = event.redo (store.replay events) :=
  rfl

theorem replay_append (store : Store) (later earlier : List Event) :
    store.replay (later ++ earlier) = (store.replay earlier).replay later :=
  List.foldr_append

/-- Which scopes come out depends on the scopes that are there. -/
theorem scopes_replay {store other : Store} (same : store.scopes = other.scopes)
    (events : List Event) : (store.replay events).scopes = (other.replay events).scopes := by
  induction events with
  | nil => exact same
  | cons event events ih =>
      rw [replay_cons, replay_cons]
      cases event <;> simp only [Event.redo, bind, addScope, ih]

/-- The events that are new on the log of the second store lead there from the first. -/
def Leads (before after : Store) : Prop :=
  ∃ events, after.log = events ++ before.log ∧ after.scopes = (before.replay events).scopes

namespace Leads

theorem refl (store : Store) : store.Leads store := ⟨[], rfl, rfl⟩

theorem trans {first second third : Store} (early : first.Leads second) (late : second.Leads third) :
    first.Leads third := by
  obtain ⟨earlier, log, scopes⟩ := early
  obtain ⟨later, log', scopes'⟩ := late
  refine ⟨later ++ earlier, ?_, ?_⟩
  · rw [log', log, List.append_assoc]
  · rw [scopes', scopes_replay scopes, replay_append]

/-- An event that is put on the log when it is done; ids do not matter. -/
theorem event (store : Store) (event : Event) (id : Nat) :
    store.Leads { event.redo store with nextId := id, log := event :: store.log } :=
  ⟨[event], rfl, rfl⟩

theorem renumber (store : Store) (id : Nat) : store.Leads { store with nextId := id } :=
  ⟨[], rfl, rfl⟩

theorem log {before after : Store} (leads : before.Leads after) :
    ∃ events, after.log = events ++ before.log := by
  obtain ⟨events, log, -⟩ := leads
  exact ⟨events, log⟩

/-- From an empty log on, the log tells all. -/
theorem scopes_eq {before after : Store} (leads : before.Leads after) (started : before.log = []) :
    after.scopes = (before.replay after.log).scopes := by
  obtain ⟨events, log, scopes⟩ := leads
  rw [log, started, List.append_nil, scopes]

/-- More of a run prints more. -/
theorem output {before after : Store} (leads : before.Leads after) :
    ∃ more, after.output = before.output ++ more := by
  obtain ⟨events, log, -⟩ := leads
  have printed : ({ after with log := events } : Store).log ++ before.log = after.log := log.symm
  exact ⟨_, output_of_log printed.symm⟩

end Leads

end Store

/-! ## A run and the same run cut short -/

namespace Eval

variable {α β : Type}

/-- However the run ends, its log tells what it did. -/
def Recorded (run : Eval α) : Prop :=
  ∀ store, run.Ends store (fun _ after => store.Leads after) store.Leads

/-- The short run ends as the long one does, or it is cut at a point from which the long run has gone
on. -/
structure Outlasts (long short : Eval α) : Prop where
  recorded : long.Recorded
  holds : ∀ store, short.Ends store (fun value after => long store = .ok value after)
    fun left => long.Ends store (fun _ after => left.Leads after) left.Leads

/-- A run outlasts itself. -/
theorem Recorded.outlasts {run : Eval α} (recorded : run.Recorded) : run.Outlasts run := by
  refine ⟨recorded, fun store => ?_⟩
  unfold Ends
  cases run store with
  | ok value after => rfl
  | error reason left => exact .refl left

namespace Outlasts

theorem pure (value : α) : Outlasts (pure value : Eval α) (Pure.pure value) :=
  Recorded.outlasts fun store => .refl store

theorem get : Outlasts (get : Eval Store) MonadState.get :=
  Recorded.outlasts fun store => .refl store

theorem fresh : Outlasts fresh fresh :=
  Recorded.outlasts fun store => .renumber store _

theorem raise (line : Int) (fault : Fault) : Outlasts (raise line fault) (Eval.raise line fault) :=
  Recorded.outlasts fun store => .event store (.raised store.nextId line fault) _

theorem giveBack (value : Value) : Outlasts (giveBack value) (Eval.giveBack value) :=
  Recorded.outlasts fun store => .event store (.returned store.nextId value) _

theorem assign (scope : Nat) (name : String) (value : Value) :
    Outlasts (assign scope name value) (Eval.assign scope name value) :=
  Recorded.outlasts fun store => .event store (.bound scope name value) store.nextId

theorem openScope (home : Nat) : Outlasts (openScope home) (Eval.openScope home) :=
  Recorded.outlasts fun store => .event store (.opened store.scopes.size home) store.nextId

theorem print (line : String) : Outlasts (record (.printed line)) (record (.printed line)) :=
  Recorded.outlasts fun store => .event store (.printed line) store.nextId

theorem close (scope : Nat) (value : Value) :
    Outlasts (record (.closed scope value)) (record (.closed scope value)) :=
  Recorded.outlasts fun store => .event store (.closed scope value) store.nextId

theorem settle (line : Int) (outcome : Except Fault Value) :
    Outlasts (settle line outcome) (Eval.settle line outcome) := by
  cases outcome with
  | ok value => exact pure value
  | error fault => exact raise line fault

theorem throw {run : Eval α} (recorded : run.Recorded) (reason : Cut) :
    run.Outlasts (throw reason) :=
  ⟨recorded, fun store => recorded store⟩

variable {long short : Eval α} {longNext shortNext : α → Eval β}

/-- If the first part is cut, then the long run has gone on from there, through all that follows. -/
theorem bind (first : long.Outlasts short) (next : ∀ value, (longNext value).Outlasts (shortNext value)) :
    (long >>= longNext).Outlasts (short >>= shortNext) := by
  have onward {before : Store} (value : α) (middle : Store) (leads : before.Leads middle) :
      (longNext value).Ends middle (fun _ after => before.Leads after) before.Leads :=
    ((next value).recorded middle).imp (fun _ _ => leads.trans) fun _ => leads.trans
  constructor
  · intro store
    rw [ends_bind]
    exact (first.recorded store).imp onward fun _ leads => leads
  · intro store
    rw [ends_bind]
    refine (first.holds store).imp ?_ ?_
    · intro value middle same
      have goes (middle' : β → Store → Prop) (cut : Store → Prop) :
          (long >>= longNext).Ends store middle' cut ↔ (longNext value).Ends middle middle' cut := by
        rw [ends_bind, Ends, same]
      have equal : (long >>= longNext) store = longNext value middle := by
        simp only [Bind.bind, EStateM.bind, same]
      refine ((next value).holds middle).imp ?_ ?_
      · intro result after given
        rw [equal, given]
      · intro left ends
        rw [goes]
        exact ends
    · intro left ends
      rw [ends_bind]
      exact ends.imp onward fun _ leads => leads

theorem andThen {long short : Eval Value} {longNext shortNext : Value → Eval Value}
    (first : long.Outlasts short) (next : ∀ value, (longNext value).Outlasts (shortNext value)) :
    (andThen long longNext).Outlasts (Eval.andThen short shortNext) := by
  refine first.bind fun value => ?_
  split
  · exact pure value
  · exact next value

theorem printAll (lines : List String) : Outlasts (printAll lines) (Eval.printAll lines) := by
  induction lines with
  | nil => exact pure ()
  | cons line lines ih => exact (print line).bind fun _ => ih

theorem assignAll (scope : Nat) (names : List Name) (values : List Value) :
    Outlasts (assignAll scope names values) (Eval.assignAll scope names values) := by
  induction names generalizing values with
  | nil => exact pure ()
  | cons name names ih =>
      cases values with
      | nil => exact pure ()
      | cons value values => exact (assign scope name.text value).bind fun _ => ih values

end Outlasts

/-! ## Trees -/

section Trees

variable {long short : Call} {scope : Nat}

theorem evalEach_outlasts {nodes : List Node}
    (each : ∀ node ∈ nodes, (node.eval long scope).Outlasts (node.eval short scope)) :
    (evalEach long scope nodes).Outlasts (evalEach short scope nodes) := by
  induction nodes with
  | nil => exact .pure _
  | cons node more ih =>
      rw [evalEach, evalEach]
      refine (each node List.mem_cons_self).bind fun value => ?_
      split
      · exact .pure _
      · refine (ih fun other member => each other (List.mem_cons_of_mem _ member)).bind fun row => ?_
        cases row with
        | ok values => exact .pure _
        | error signal => exact .pure _

theorem evalEntries_outlasts {entries : List (Node × Node)} {done : Entries}
    (each : ∀ entry ∈ entries, (entry.1.eval long scope).Outlasts (entry.1.eval short scope) ∧
      (entry.2.eval long scope).Outlasts (entry.2.eval short scope)) :
    (evalEntries long scope done entries).Outlasts (evalEntries short scope done entries) := by
  induction entries generalizing done with
  | nil => exact .pure _
  | cons entry more ih =>
      have here := each entry List.mem_cons_self
      rw [evalEntries, evalEntries]
      refine here.1.bind fun key => ?_
      split
      · exact .pure _
      split
      · exact (Outlasts.raise _ _).bind fun signal => .pure _
      · refine here.2.bind fun value => ?_
        split
        · exact .pure _
        · exact ih fun other member => each other (List.mem_cons_of_mem _ member)

theorem evalStatements_outlasts {statements : List Node} {last : Value}
    (each : ∀ node ∈ statements, (node.eval long scope).Outlasts (node.eval short scope)) :
    (evalStatements long scope last statements).Outlasts
      (evalStatements short scope last statements) := by
  induction statements generalizing last with
  | nil => exact .pure _
  | cons node more ih =>
      rw [evalStatements, evalStatements]
      refine (each node List.mem_cons_self).andThen fun value => ?_
      exact ih fun other member => each other (List.mem_cons_of_mem _ member)

end Trees

end Eval

/-- Running a tree outlasts running it with calls that are cut earlier. -/
theorem Node.eval_outlasts {long short : Call}
    (calls : ∀ callee arguments line, (long callee arguments line).Outlasts (short callee arguments line))
    (scope : Nat) (node : Node) : (node.eval long scope).Outlasts (node.eval short scope) := by
  induction node using Node.child_induction with
  | step node ih =>
    cases node with
    | missing | bare => exact .raise _ _
    | number | text | boolean => exact .pure _
    | identifier line name =>
        rw [Node.eval, Node.eval]
        refine Outlasts.get.bind fun store => ?_
        split
        · exact .pure _
        split
        · exact .pure _
        · exact .raise _ _
    | unary line operator operand =>
        have part := ih operand (by simp [Node.children])
        rw [Node.eval, Node.eval]
        exact part.andThen fun value => Outlasts.fresh.bind fun id => .settle _ _
    | binary line left operator right =>
        have first := ih left (by simp [Node.children])
        have second := ih right (by simp [Node.children])
        rw [Node.eval, Node.eval]
        exact first.andThen fun a => second.andThen fun b => Outlasts.fresh.bind fun id => .settle _ _
    | logical line left operator right =>
        have first := ih left (by simp [Node.children])
        have second := ih right (by simp [Node.children])
        rw [Node.eval, Node.eval]
        refine first.andThen fun a => ?_
        split
        · exact .pure _
        split
        · exact .pure _
        · exact second.andThen fun b => .pure _
    | conditional line condition consequence alternative =>
        cases alternative with
        | none =>
            have first := ih condition (by simp [Node.children])
            have second := ih consequence (by simp [Node.children])
            rw [Node.eval, Node.eval]
            refine first.andThen fun value => ?_
            split
            · exact second
            · exact .pure _
        | some alternative =>
            have first := ih condition (by simp [Node.children])
            have second := ih consequence (by simp [Node.children])
            have third := ih alternative (by simp [Node.children])
            rw [Node.eval, Node.eval]
            refine first.andThen fun value => ?_
            split
            · exact second
            · exact third
    | function line parameters body =>
        rw [Node.eval, Node.eval]
        exact Outlasts.fresh.bind fun id => .pure _
    | call line callee arguments =>
        have first := ih callee (by simp [Node.children])
        have each (node : Node) (member : node ∈ arguments) :=
          ih node (by simp [Node.children, member])
        rw [Node.eval, Node.eval]
        refine first.andThen fun function => (evalEach_outlasts each).bind fun row => ?_
        cases row with
        | ok values => exact calls function values line
        | error signal => exact .pure _
    | array line items =>
        rw [Node.eval, Node.eval]
        refine (evalEach_outlasts ih).bind fun row => ?_
        cases row with
        | ok values => exact Outlasts.fresh.bind fun id => .pure _
        | error signal => exact .pure _
    | index line subject position =>
        have first := ih subject (by simp [Node.children])
        have second := ih position (by simp [Node.children])
        rw [Node.eval, Node.eval]
        exact first.andThen fun a => second.andThen fun b => .settle _ _
    | hash line entries =>
        have each (entry : Node × Node) (member : entry ∈ entries) :=
          And.intro (ih entry.1 (Node.mem_children_hash line member).1)
            (ih entry.2 (Node.mem_children_hash line member).2)
        rw [Node.eval, Node.eval]
        refine (evalEntries_outlasts each).bind fun made => ?_
        cases made with
        | ok entries => exact Outlasts.fresh.bind fun id => .pure _
        | error signal => exact .pure _
    | binding line name value =>
        have part := ih value (by simp [Node.children])
        rw [Node.eval, Node.eval]
        exact part.andThen fun value => (Outlasts.assign _ _ _).bind fun _ => .pure _
    | result line value =>
        cases value with
        | none => exact .giveBack _
        | some value =>
            have part := ih value (by simp [Node.children])
            rw [Node.eval, Node.eval]
            exact part.andThen fun value => .giveBack _
    | expression line inner => exact ih inner (by simp [Node.children])
    | block line statements => exact evalStatements_outlasts ih
    | program line statements =>
        rw [Node.eval, Node.eval]
        exact (evalStatements_outlasts ih).bind fun value => .pure _

/-! ## Calls -/

/-- All calls but those of a function with as many arguments as it has parameters are the same under
every bound. -/
theorem apply_outlasts_of_function {higher lower : Nat} {callee : Value} {arguments : List Value}
    {line : Int} (function : ∀ id parameters body home, callee = .function id parameters body home →
      arguments.length = parameters.length →
      (apply higher callee arguments line).Outlasts (apply lower callee arguments line)) :
    (apply higher callee arguments line).Outlasts (apply lower callee arguments line) := by
  cases callee with
  | function id parameters body home =>
      by_cases matching : arguments.length = parameters.length
      · exact function id parameters body home rfl matching
      · unfold apply
        dsimp only
        rw [if_pos matching, if_pos matching]
        exact .raise _ _
  | builtin builtin =>
      unfold apply
      exact (Outlasts.printAll _).bind fun _ => Outlasts.fresh.bind fun id => .settle _ _
  | _ =>
      unfold apply
      exact .raise _ _

section Functions

variable {id home : Nat} {parameters : List Name} {body : Node} {arguments : List Value}
  (matching : arguments.length = parameters.length)

include matching

theorem apply_zero_function (line : Int) :
    apply 0 (.function id parameters body home) arguments line = throw .tooDeep := by
  unfold apply
  dsimp only
  rw [if_neg (by simpa using matching)]

theorem apply_succ_function {higher lower : Nat} (line : Int)
    (run : ∀ scope, (body.eval (apply higher) scope).Outlasts (body.eval (apply lower) scope)) :
    (apply (higher + 1) (.function id parameters body home) arguments line).Outlasts
      (apply (lower + 1) (.function id parameters body home) arguments line) := by
  unfold apply
  dsimp only
  rw [if_neg (by simpa using matching), if_neg (by simpa using matching)]
  refine (Outlasts.openScope home).bind fun scope => ?_
  refine (Outlasts.assignAll scope parameters arguments).bind fun _ => ?_
  exact (run scope).bind fun value => (Outlasts.close _ _).bind fun _ => .pure _

end Functions

/-- A call outlasts the same call where fewer calls may be nested; the induction is on how many may be
nested in the long run. -/
theorem apply_outlasts {lower higher : Nat} (le : lower ≤ higher) (callee : Value)
    (arguments : List Value) (line : Int) :
    (apply higher callee arguments line).Outlasts (apply lower callee arguments line) := by
  induction higher generalizing lower callee arguments line with
  | zero =>
      obtain rfl : lower = 0 := Nat.le_zero.mp le
      refine apply_outlasts_of_function fun id parameters body home isFunction matching => ?_
      rw [isFunction, apply_zero_function matching]
      exact Recorded.outlasts fun store => .refl store
  | succ higher ih =>
      refine apply_outlasts_of_function fun id parameters body home isFunction matching => ?_
      have bodies {lower : Nat} (le : lower ≤ higher) (scope : Nat) :=
        body.eval_outlasts (ih le) scope
      subst isFunction
      cases lower with
      | zero =>
          -- The call is cut at once; the long one goes on from there, and what it does is recorded.
          rw [apply_zero_function matching]
          exact .throw (apply_succ_function matching line (bodies le_rfl)).recorded _
      | succ lower => exact apply_succ_function matching line (bodies (Nat.le_of_succ_le_succ le))

/-! ## Sessions -/

namespace Session

/-- The first run is the second as far as it goes: they end alike, or the first was cut short. What the
first did, the second did before anything else, so what the first printed is the beginning of what the
second printed. The scopes of both are what their logs tell, so those of the first are a state that the
second went through. -/
structure Curtails (start : Store) (short long : Outcome × Session) : Prop where
  same : (∀ reason, short.1 ≠ .cut reason) → long = short
  onward : ∃ later, long.2.store.log = later ++ short.2.store.log
  printed : ∃ more, long.2.store.output = short.2.store.output ++ more
  root : long.2.root = short.2.root
  passed : short.2.store.scopes = (start.replay short.2.store.log).scopes
  reached : long.2.store.scopes = (start.replay long.2.store.log).scopes

/-- What two runs in the same session have to do with each other. -/
theorem run_curtails (session : Session) {long short : Eval Value} (outlasts : long.Outlasts short)
    (recorded : short.Recorded) :
    Curtails { session.store with log := [] } (session.run short) (session.run long) := by
  have early := recorded { session.store with log := [] }
  have late := outlasts.recorded { session.store with log := [] }
  have holds := outlasts.holds { session.store with log := [] }
  unfold Ends at early late holds
  unfold run
  cases shortEnd : short { session.store with log := [] } with
  | ok value after =>
      rw [shortEnd] at early holds
      simp only at holds
      rw [holds]
      exact ⟨fun _ => rfl, ⟨[], rfl⟩, ⟨"", String.append_empty.symm⟩, rfl, early.scopes_eq rfl,
        early.scopes_eq rfl⟩
  | error reason left =>
      rw [shortEnd] at early holds
      -- However the long run ends, it has gone on from where the short one was cut.
      cases longEnd : long { session.store with log := [] } with
      | ok value after =>
          rw [longEnd] at holds late
          exact ⟨fun uncut => absurd rfl (uncut reason), holds.log, holds.output, rfl,
            early.scopes_eq rfl, late.scopes_eq rfl⟩
      | error later after =>
          rw [longEnd] at holds late
          exact ⟨fun uncut => absurd rfl (uncut reason), holds.log, holds.output, rfl,
            early.scopes_eq rfl, late.scopes_eq rfl⟩

theorem evalNode_curtails (session : Session) {lower higher : Nat} (le : lower ≤ higher) (node : Node) :
    Curtails { session.store with log := [] } (session.evalNode lower node)
      (session.evalNode higher node) :=
  session.run_curtails (node.eval_outlasts (apply_outlasts le) session.root)
    (node.eval_outlasts (apply_outlasts le_rfl) session.root).recorded

end Session

/-- The bound on nested calls can only cut a run short, never change it. Under a higher bound every tree
and every source ends as it does under a lower one, unless it is cut there; then it has printed the
beginning of what is printed under the higher bound, and it leaves the scopes in a state that the run
under the higher bound goes through. -/
theorem bound_only_cuts (session : Session) {lower higher : Nat} (le : lower ≤ higher) :
    (∀ node, Session.Curtails { session.store with log := [] } (session.evalNode lower node)
      (session.evalNode higher node)) ∧
    ∀ source, Session.Curtails { session.store with log := [] } (session.eval lower source)
      (session.eval higher source) := by
  refine ⟨session.evalNode_curtails le, fun source => ?_⟩
  unfold Session.eval
  cases parse source with
  | ok program => exact session.evalNode_curtails le program
  | error e =>
      exact ⟨fun _ => rfl, ⟨[], rfl⟩, ⟨"", String.append_empty.symm⟩, rfl, rfl, rfl⟩

/-- A program that binds a name and then calls a function, without and with a call to spare. -/
theorem bound_only_cuts_call :
    let program : Node := .program 1 [.binding 1 ⟨1, "a"⟩ (.boolean 1 true),
      .expression 1 (.call 1 (.function 1 [] (.block 1 [])) [])]
    0 ≤ 1 ∧ (Session.new.evalNode 0 program).1 = .cut .tooDeep ∧
      (Session.new.evalNode 1 program).1 = .value .null ∧
      Session.Curtails { Session.new.store with log := [] } (Session.new.evalNode 0 program)
        (Session.new.evalNode 1 program) :=
  ⟨Nat.zero_le 1, rfl, rfl, (bound_only_cuts Session.new (Nat.zero_le 1)).1 _⟩

end Treewalk

import Treewalk.Proofs.Eval.Signals

/-!
# Runs fail fast

Once an error is found, a run does nothing more; once a value is on its way back, it does nothing more
until the call that the value ends is over. `Trail` is the shape that this gives to the log of a run,
with the calls that are open at each point. The discipline `failFast` shows that every run leaves such
a log, and what the log and the value of a run tell of each other is read off the shape.
-/

namespace Treewalk

open Eval

/-! ## Logs -/

/-- How a run stands: it goes on, a value is on its way back, or it has failed. -/
inductive Standing where
  | running
  | returning (value : Value)
  | failed (id : Nat) (line : Int) (fault : Fault)

/-- The log of a run with the calls that are open, the latest first. While a value is on its way back
nothing happens but that the latest call gives it; after an error nothing happens but that one open call
after another gives the error. -/
inductive Trail : List Event → List Nat → Standing → Prop
  | start : Trail [] [] .running
  | printed {log : List Event} {calls : List Nat} {line : String} :
      Trail log calls .running → Trail (.printed line :: log) calls .running
  | bound {log : List Event} {calls : List Nat} {scope : Nat} {name : String} {value : Value} :
      Trail log calls .running → Trail (.bound scope name value :: log) calls .running
  | opened {log : List Event} {calls : List Nat} {scope home : Nat} :
      Trail log calls .running → Trail (.opened scope home :: log) (scope :: calls) .running
  | closed {log : List Event} {calls : List Nat} {scope : Nat} {value : Value} :
      Trail log (scope :: calls) .running → Trail (.closed scope value :: log) calls .running
  | returned {log : List Event} {calls : List Nat} {id : Nat} {value : Value} :
      Trail log calls .running → Trail (.returned id value :: log) calls (.returning value)
  | arrived {log : List Event} {calls : List Nat} {scope : Nat} {value : Value} :
      Trail log (scope :: calls) (.returning value) →
      Trail (.closed scope value :: log) calls .running
  | raised {log : List Event} {calls : List Nat} {id : Nat} {line : Int} {fault : Fault} :
      Trail log calls .running → Trail (.raised id line fault :: log) calls (.failed id line fault)
  | passed {log : List Event} {calls : List Nat} {scope id : Nat} {line : Int} {fault : Fault} :
      Trail log (scope :: calls) (.failed id line fault) →
      Trail (.closed scope (.error id line fault) :: log) calls (.failed id line fault)

/-- How a run stands that gives a value. -/
def Value.standing : Value → Standing
  | .result _ value => .returning value
  | .error id line fault => .failed id line fault
  | _ => .running

/-! ## Runs leave trails -/

namespace Discipline

/-- The log is a trail with fixed open calls, on which the run stands as its value tells. -/
def failFast (calls : List Nat) : Discipline where
  inv store := store.Clean Node.Inner ∧ Trail store.log calls .running
  moves _ _ := True
  plain _ value := value.Plain Node.Inner
  stops _ value after :=
    (after.Clean Node.Inner ∧ value.Proper Node.Inner) ∧ Trail after.log calls value.standing
  cuts _ _ := True
  fact := Node.Inner
  assigns _ := True

theorem standing_of_ordinary {value : Value} (ordinary : value.isSignal = false) :
    value.standing = .running := by
  cases value with
  | result => cases ordinary
  | error => cases ordinary
  | _ => rfl

theorem failFast_arrives {calls : List Nat} {store after : Store} {value : Value} :
    (failFast calls).Arrives store value after ↔
      (after.Clean Node.Inner ∧ value.Proper Node.Inner) ∧ Trail after.log calls value.standing := by
  constructor
  · intro arrives
    by_cases signal : value.isSignal = true
    · exact arrives.stops signal
    · obtain ⟨⟨clean, trail⟩, -, plain⟩ := arrives.plain signal
      rw [standing_of_ordinary (by simpa using signal)]
      exact ⟨⟨clean, Value.Plain.proper plain⟩, trail⟩
  · rintro ⟨⟨clean, proper⟩, trail⟩
    cases signal : value.isSignal with
    | true => exact .of_stops signal ⟨⟨clean, proper⟩, trail⟩
    | false =>
        rw [standing_of_ordinary signal] at trail
        exact .of_plain signal ⟨clean, trail⟩ trivial (proper.plain signal)

theorem failFast_arrives_plain {calls : List Nat} {store after : Store} {value : Value}
    (inv : (failFast calls).inv after) (plain : value.Plain Node.Inner) :
    (failFast calls).Arrives store value after :=
  .of_plain plain.isSignal_eq_false inv trivial plain

theorem failFast_lawful (calls : List Nat) (scope : Nat) : (failFast calls).Lawful scope where
  refl _ := trivial
  trans _ _ := trivial
  stops_after _ stops := stops
  cuts_after _ _ := trivial
  mono _ plain := plain
  atom atomic _ := atomic.plain
  number _ _ := .number
  fresh inv := ⟨⟨inv.1.renumber _, inv.2⟩, trivial⟩
  array _ plain := .array plain
  hash _ made := .hash fun entry member => (made entry member).2
  function _ every := .function every
  unary _ _ given := (Operator.unary_atomic given).plain
  binary _ _ _ given := (Operator.binary_atomic given).plain
  lookup inv found := failFast_arrives_plain inv (inv.1.lookup found)
  index inv plain given := by
    rcases Operator.index_part given with rfl | part
    · exact failFast_arrives_plain inv .null
    · exact failFast_arrives_plain inv (Value.Plain.parts plain part)
  raise inv _ _ := ⟨⟨inv.1.raised _ _, trivial⟩, .raised inv.2⟩
  giveBack {store value} inv plain :=
    ⟨⟨(inv.1.renumber (store.nextId + 1)).note (.returned store.nextId value) plain, plain⟩,
      .returned inv.2⟩
  assign inv plain _ :=
    ⟨⟨(inv.1.bind _ _ plain).note (.bound ..) plain, .bound inv.2⟩, trivial⟩
  print line inv := ⟨⟨inv.1.note (.printed line) trivial, .printed inv.2⟩, trivial⟩
  builtin inv plain given :=
    failFast_arrives_plain ⟨inv.1.renumber _, inv.2⟩
      (Value.plain_of_makes plain (Builtin.apply_makes given))
  cut _ := trivial
  program inner _ := False.elim inner

/-- A call is over: what was on its way back to it has arrived, and an error is passed on. -/
theorem trail_closed {log : List Event} {calls : List Nat} {scope : Nat} {value : Value}
    (proper : value.Proper Node.Inner) (trail : Trail log (scope :: calls) value.standing) :
    Trail (.closed scope value.unwrapped :: log) calls value.unwrapped.standing := by
  cases value with
  | result id inner =>
      have plain : inner.Plain Node.Inner := proper
      simp only [Value.unwrapped, standing_of_ordinary plain.isSignal_eq_false]
      exact .arrived trail
  | error id line fault => exact .passed trail
  | _ => exact .closed trail

/-- Calls leave trails; the induction is on how many calls may be nested. -/
theorem failFast_answers (depth : Nat) (calls : List Nat) :
    (failFast calls).Answers (apply depth) := by
  induction depth generalizing calls with
  | zero =>
      intro store line function nodes callee arguments inv inner plainCallee plain
      exact apply_follows (failFast_lawful calls 0) inv inner plainCallee plain (by simp)
  | succ depth ih =>
      intro store line function nodes callee arguments inv inner plainCallee plain
      refine apply_follows (failFast_lawful calls 0) inv inner plainCallee plain ?_
      intro id parameters body home rest isFunction sameDepth matching
      subst isFunction
      cases sameDepth
      have opened := (inv.1.addScope (some home)).note (.opened store.scopes.size home) trivial
      refine ends_apply_of_body (failFast_lawful (store.scopes.size :: calls) store.scopes.size)
        (ih (store.scopes.size :: calls)) (Value.Plain.body plainCallee) (fun _ => trivial) matching rfl
        ⟨opened, .opened inv.2⟩ plain ?_ fun _ cut => cut
      intro value left arrives
      obtain ⟨⟨clean, proper⟩, trail⟩ := failFast_arrives.mp arrives
      have settled := proper.unwrapped
      exact failFast_arrives.mpr
        ⟨⟨clean.note (.closed _ _) settled, settled.1⟩, trail_closed proper trail⟩

end Discipline

open Discipline

/-- A program that is run with an empty log leaves a trail without open calls. -/
theorem Node.eval_program_trail (depth scope : Nat) (line : Int) {statements : List Node}
    {store : Store} (every : ∀ node ∈ statements, node.Every Node.Inner)
    (clean : store.Clean Node.Inner) (fresh : store.log = []) :
    ((Node.program line statements).eval (apply depth) scope).Ends store
      (fun value after => ∃ given : Value, value = given.unwrapped ∧ given.Proper Node.Inner ∧
        Trail after.log [] given.standing)
      (fun _ => True) := by
  have inv : (failFast []).inv store := ⟨clean, fresh ▸ .start⟩
  have run := statements_follow (failFast_lawful [] scope) (failFast_answers depth []) statements
    every (fun _ _ _ _ => trivial) store inv
  rw [Node.eval, ends_bind]
  refine run.imp ?_ fun _ cut => cut
  intro given after arrives
  obtain ⟨⟨_, proper⟩, trail⟩ := failFast_arrives.mp arrives
  exact ⟨given, rfl, proper, trail⟩

/-! ## What a log tells -/

/-- The calls that are open after a log, the latest first. -/
def openCalls : List Event → List Nat
  | [] => []
  | .opened scope _ :: log => scope :: openCalls log
  | .closed .. :: log => (openCalls log).tail
  | _ :: log => openCalls log

/-- Everything is a deed of the run but that a call is over. -/
def Event.isDeed : Event → Bool
  | .closed .. => false
  | _ => true

def Event.isRaise : Event → Bool
  | .raised .. => true
  | _ => false

/-- What the log of a run and the value it gave tell of each other if runs fail fast. The log has the
latest event first. -/
structure FailsFast (log : List Event) (value : Value) : Prop where
  /-- Either no error was found and none is given, or one was found, as the last deed of the run, and it
  is what the run gives. -/
  errors : (∀ event ∈ log, event.isRaise = false) ∧ value.isError = false ∨
    ∃ id line fault earlier, log.filter Event.isDeed = .raised id line fault :: earlier ∧
      (∀ event ∈ earlier, event.isRaise = false) ∧ value = .error id line fault
  /-- Behind a value that set out, nothing happens before the latest open call is over, and that call
  gives the value. If no call is open, nothing happens at all, and the run gives the value. -/
  returns : ∀ later id given earlier, log = later ++ .returned id given :: earlier →
    match openCalls earlier with
    | [] => later = [] ∧ value = given
    | scope :: _ => ∃ rest, later = rest ++ [.closed scope given]

namespace Trail

variable {log : List Event} {calls : List Nat} {standing : Standing}

theorem openCalls_eq (trail : Trail log calls standing) : openCalls log = calls := by
  induction trail with
  | start => rfl
  | printed _ ih | bound _ ih | returned _ ih | raised _ ih => exact ih
  | opened _ ih => rw [openCalls, ih]
  | closed _ ih | arrived _ ih | passed _ ih => rw [openCalls, ih, List.tail_cons]

/-- An error is found only by a run that then has failed, and it is the last thing that the run did. -/
theorem raises (trail : Trail log calls standing) :
    match standing with
    | .failed id line fault => ∃ earlier,
        log.filter Event.isDeed = .raised id line fault :: earlier ∧
          ∀ event ∈ earlier, event.isRaise = false
    | _ => ∀ event ∈ log, event.isRaise = false := by
  induction trail with
  | start => simp
  | printed _ ih | bound _ ih | opened _ ih | closed _ ih | returned _ ih | arrived _ ih =>
      exact List.forall_mem_cons.mpr ⟨rfl, ih⟩
  | @raised log calls id line fault _ ih =>
      refine ⟨log.filter Event.isDeed, List.filter_cons_of_pos rfl, ?_⟩
      exact fun event member => ih event (List.mem_filter.mp member).1
  | passed _ ih =>
      obtain ⟨earlier, found, none⟩ := ih
      exact ⟨earlier, by simpa [Event.isDeed] using found, none⟩

/-- A value that set out is still on its way, or has arrived at the latest call that was open. -/
theorem returns (trail : Trail log calls standing) {later earlier : List Event} {id : Nat}
    {given : Value} (split : log = later ++ .returned id given :: earlier) :
    later = [] ∧ standing = .returning given ∧ openCalls earlier = calls ∨
      ∃ scope outer rest, openCalls earlier = scope :: outer ∧
        later = rest ++ [.closed scope given] := by
  -- What has arrived has arrived, whatever happens next.
  have further (event : Event) {more : List Event}
      (arrived : ∃ scope outer rest, openCalls earlier = scope :: outer ∧
        more = rest ++ [.closed scope given]) :
      ∃ scope outer rest, openCalls earlier = scope :: outer ∧
        event :: more = rest ++ [.closed scope given] := by
    obtain ⟨scope, outer, rest, same, rfl⟩ := arrived
    exact ⟨scope, outer, event :: rest, same, rfl⟩
  induction trail generalizing later with
  | start => simp at split
  | printed _ ih | bound _ ih | opened _ ih | closed _ ih | raised _ ih | passed _ ih =>
      cases later with
      | nil => cases split
      | cons event more =>
          cases split
          rcases ih rfl with ⟨_, other, _⟩ | arrived
          · cases other
          · exact .inr (further _ arrived)
  | returned before ih =>
      cases later with
      | nil =>
          cases split
          exact .inl ⟨rfl, rfl, before.openCalls_eq⟩
      | cons event more =>
          cases split
          rcases ih rfl with ⟨_, other, _⟩ | arrived
          · cases other
          · exact .inr (further _ arrived)
  | arrived _ ih =>
      cases later with
      | nil => cases split
      | cons event more =>
          cases split
          rcases ih rfl with ⟨rfl, same, calls⟩ | arrived
          · cases same
            exact .inr ⟨_, _, [], calls, rfl⟩
          · exact .inr (further _ arrived)

/-- The log of a finished run, and the value it gives. -/
theorem failsFast {given : Value} (trail : Trail log [] given.standing)
    (proper : given.Proper Node.Inner) : FailsFast log given.unwrapped := by
  constructor
  · have found := trail.raises
    cases given with
    | error id line fault =>
        obtain ⟨earlier, last, none⟩ := found
        exact .inr ⟨id, line, fault, earlier, last, none, rfl⟩
    | result id inner =>
        refine .inl ⟨found, ?_⟩
        have plain : inner.Plain Node.Inner := proper
        cases plain <;> rfl
    | _ => exact .inl ⟨found, rfl⟩
  · intro later id inner earlier split
    rcases trail.returns split with ⟨rfl, same, calls⟩ | ⟨scope, outer, rest, calls, rfl⟩
    · rw [calls]
      cases given with
      | result =>
          cases same
          exact ⟨rfl, rfl⟩
      | _ => cases same
    · rw [calls]
      exact ⟨rest, rfl⟩

end Trail

/-! ## Sessions -/

/-- A call that is over has told the value it gives. -/
theorem apply_closes (depth id home : Nat) {parameters : List Name} (body : Node)
    {arguments : List Value} (line : Int) (store : Store)
    (matching : arguments.length = parameters.length) :
    (apply depth (.function id parameters body home) arguments line).Ends store
      (fun value after => after.log.head? = some (.closed store.scopes.size value))
      (fun _ => True) := by
  cases depth with
  | zero =>
      unfold apply
      dsimp only
      rw [if_neg (by simpa using matching), ends_throw]
      trivial
  | succ rest =>
      rw [ends_apply_function matching]
      refine ends_of_forall ?_ fun _ => trivial
      intro _ entered
      exact ends_of_forall (fun _ _ => rfl) fun _ => trivial

/-- A source that is run in a clean session. -/
theorem Session.failsFast_eval {session : Session} {depth : Nat} {source : String} {value : Value}
    (clean : session.store.Clean Node.Inner)
    (completed : (session.eval depth source).1 = .value value) :
    FailsFast (session.eval depth source).2.store.log value := by
  unfold eval at completed ⊢
  split at completed
  case h_1 program read =>
    obtain ⟨line, statements, rfl, inner⟩ := exists_program_of_parse read
    have ends := Node.eval_program_trail depth session.root line inner clean.forget rfl
    rcases run_ends ends with ⟨_, same, given, rfl, proper, trail⟩ | ⟨⟨_, cut⟩, _⟩
    · rw [evalNode, same] at completed
      cases completed
      exact trail.failsFast proper
    · rw [evalNode, cut] at completed
      cases completed
  case h_2 => cases completed

/-- Runs fail fast. Of every source that is run to its end, at any point of a session: an error that is
found is the last thing that happens and what the run gives, and an error that is given was found so;
and behind a value that is given back nothing happens until the latest call, or the program, is over
and gives it. The event that ends a call tells what the call gives. -/
theorem runs_fail_fast (session : Session) (clean : session.store.Clean Node.Inner) :
    (∀ (steps : List (Nat × String)) (depth : Nat) (source : String) (value : Value),
      ((session.after steps).eval depth source).1 = .value value →
      FailsFast ((session.after steps).eval depth source).2.store.log value) ∧
    (∀ (depth id home : Nat) (parameters : List Name) (body : Node) (arguments : List Value)
      (line : Int) (store : Store), arguments.length = parameters.length →
      (apply depth (.function id parameters body home) arguments line).Ends store
        (fun value after => after.log.head? = some (.closed store.scopes.size value))
        (fun _ => True)) := by
  constructor
  · intro steps depth source value completed
    exact Session.failsFast_eval (Session.clean_after steps readable_inner clean) completed
  · intro depth id home parameters body arguments line store matching
    exact apply_closes depth id home body line store matching

/-- A value that is given back out of a nested block, and an error behind which nothing is printed. -/
theorem runs_fail_fast_new :
    (Session.new.store.Clean Node.Inner) ∧
      ((Session.new.after []).eval 2
        "fn() \x7b if true \x7b return true; \x7d; false \x7d(); -false; puts(true)").1 =
        .value (.error 4 1 (.unknownUnary "-" .boolean)) ∧
      FailsFast ((Session.new.after []).eval 2
        "fn() \x7b if true \x7b return true; \x7d; false \x7d(); -false; puts(true)").2.store.log
        (.error 4 1 (.unknownUnary "-" .boolean)) := by
  have completed : ((Session.new.after []).eval 2
      "fn() \x7b if true \x7b return true; \x7d; false \x7d(); -false; puts(true)").1 =
      .value (.error 4 1 (.unknownUnary "-" .boolean)) := by
    cbv
  exact ⟨Session.clean_new, completed,
    (runs_fail_fast Session.new Session.clean_new).1 [] 2 _ _ completed⟩

end Treewalk

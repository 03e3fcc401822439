import Treewalk.Proofs.Eval.Frame
import Treewalk.Proofs.Eval.Translation
import Treewalk.Proofs.Reader.Joined
import Treewalk.Proofs.Store.Scopes
import Treewalk.Session

/-!
# One piece or two entries

Running two sources one after the other in a session is running them in one piece, as long as no
statement of the first gives a signal. Reading is `parse_joined`. Running goes statement by statement
(`evalStatements_append`), and the only thing that a second entry starts anew is the log. Runs write the
log and never read it (`afterLog`), so the second part of the piece does what the second entry does,
with the log of the first part below its own.
-/

namespace Treewalk

open Eval

/-! ## The log is only written -/

/-- The discipline that asks for nothing. -/
abbrev Discipline.free : Discipline :=
  scopewise (fun _ _ => True) fun _ => True

theorem Discipline.free_kept : Translation.Kept free where
  lawful _ := scopewise_lawful (fun _ => trivial) (fun _ _ => trivial) fun _ _ _ => trivial
  answers _ _ _ _ _ _ _ _ _ _ _ :=
    ends_of_forall (fun _ _ => scopewise_arrives.mpr trivial) fun _ => trivial
  assigns _ := trivial
  opened _ _ := ⟨trivial, trivial⟩
  body _ := Node.every_of_forall (fun _ => trivial) _

/-- The same run after other events. -/
def afterLog (log : List Event) : Translation where
  line := id
  id := id
  scope := id
  key := id
  value := id
  store store := { store with log := store.log ++ log }

theorem afterLog_entry (log : List Event) : (afterLog log).entry = id := rfl

theorem afterLog_lawful (log : List Event) : (afterLog log).Lawful .free where
  zero := rfl
  atom _ _ := rfl
  number _ := rfl
  array _ items := by simp [afterLog]
  hash _ entries := by
    rw [afterLog_entry, List.map_id]
    rfl
  function _ parameters body _ := by simp [afterLog, Node.mapLines_id, Name.mapLine_id]
  kind _ := rfl
  truthy _ := rfl
  unwrapped _ := rfl
  key? _ := by simp [afterLog]
  insert _ _ entries := by
    rw [afterLog_entry, List.map_id, List.map_id]
    rfl
  unary _ _ _ := by simp [afterLog]
  binary _ _ _ _ := by simp [afterLog]
  index _ _ := by simp [afterLog]
  builtin _ _ _ := by simp [afterLog]
  printed _ _ := by simp [afterLog]
  lookup scope name _ :=
    Store.lookup_of_map (by simp [afterLog, Scope.mapValues_id]) scope name
  fresh _ := rfl
  raise _ _ _ := rfl
  giveBack _ _ := rfl
  assign _ _ _ _ := rfl
  openScope _ _ := rfl
  print _ _ := rfl
  close _ _ _ := rfl

/-- What statements do after other events. -/
theorem evalStatements_afterLog (depth scope : Nat) (last : Value) (statements : List Node)
    (store : Store) (log : List Event) :
    evalStatements (apply depth) scope last statements { store with log := store.log ++ log } =
      match evalStatements (apply depth) scope last statements store with
      | .ok value after => .ok value { after with log := after.log ++ log }
      | .error cut after => .error cut { after with log := after.log ++ log } := by
  have laws := afterLog_lawful log
  have same : statements.map (Node.mapLines id) = statements :=
    (List.map_congr_left fun node _ => node.mapLines_id).trans (List.map_id' statements)
  have carried : (afterLog log).Carries (afterLog log).value store
      (evalStatements (apply depth) scope last statements)
      (evalStatements (apply depth) scope last (statements.map (Node.mapLines id))) :=
    Translation.carries_evalStatements laws last trivial fun node _ store inv =>
      Translation.eval_carries laws Discipline.free_kept depth scope
        (Node.every_of_forall (fun _ => trivial) node) inv
  rw [same] at carried
  refine Eq.trans carried ?_
  cases evalStatements (apply depth) scope last statements store <;> rfl

/-! ## Statements one after another -/

/-- One of the statements gives a signal when they are run one after another. -/
inductive GivesSignal (call : Call) (scope : Nat) : Store → List Node → Prop
  | here {store after : Store} {node : Node} {more : List Node} {value : Value} :
      node.eval call scope store = .ok value after → value.isSignal = true →
      GivesSignal call scope store (node :: more)
  | later {store after : Store} {node : Node} {more : List Node} {value : Value} :
      node.eval call scope store = .ok value after → value.isSignal = false →
      GivesSignal call scope after more → GivesSignal call scope store (node :: more)

section Statements

variable {call : Call} {scope : Nat} {store after : Store} {value last : Value}

theorem andThen_assoc (run : Eval Value) (next further : Value → Eval Value) :
    andThen (andThen run next) further = andThen run fun value => andThen (next value) further := by
  unfold andThen
  simp only [bind_assoc]
  refine bind_congr fun value => ?_
  by_cases signal : value.isSignal = true
  · simp [signal]
  · simp [signal]

theorem andThen_congr {run : Eval Value} {next other : Value → Eval Value}
    (same : ∀ value, value.isSignal = false → next value = other value) :
    andThen run next = andThen run other := by
  unfold andThen
  refine bind_congr fun value => ?_
  by_cases signal : value.isSignal = true
  · simp [signal]
  · simp [signal, same value (by simpa using signal)]

theorem evalStatements_cons (node : Node) (more : List Node) :
    evalStatements call scope last (node :: more) =
      andThen (node.eval call scope) fun value => evalStatements call scope value more := by
  rw [evalStatements]
  rfl

/-- Statements behind others are run if those before give no signal. -/
theorem evalStatements_append (ordinary : last.isSignal = false) (front back : List Node) :
    evalStatements call scope last (front ++ back) =
      andThen (evalStatements call scope last front) fun value =>
        evalStatements call scope value back := by
  induction front generalizing last with
  | nil => simp [evalStatements, andThen, ordinary]
  | cons node more ih =>
      rw [List.cons_append, evalStatements_cons, evalStatements_cons, andThen_assoc]
      exact andThen_congr fun value ordinary => ih ordinary

theorem evalStatements_append_of_ok {front : List Node} (ordinary : last.isSignal = false)
    (done : evalStatements call scope last front store = .ok value after) (back : List Node) :
    evalStatements call scope last (front ++ back) store =
      if value.isSignal then .ok value after else evalStatements call scope value back after := by
  rw [evalStatements_append ordinary]
  simp only [andThen, bind, EStateM.bind, done]
  split <;> rfl

/-- What statements give is a signal if one of them gives one. -/
theorem isSignal_iff_givesSignal {statements : List Node} (ordinary : last.isSignal = false)
    (done : evalStatements call scope last statements store = .ok value after) :
    value.isSignal = true ↔ GivesSignal call scope store statements := by
  induction statements generalizing store last with
  | nil =>
      cases done
      rw [ordinary]
      exact ⟨nofun, nofun⟩
  | cons node more ih =>
      rw [evalStatements] at done
      simp only [bind, EStateM.bind] at done
      cases run : node.eval call scope store with
      | error cut left =>
          rw [run] at done
          cases done
      | ok first middle =>
          rw [run] at done
          cases signal : first.isSignal with
          | true =>
              simp only [signal, if_true] at done
              cases done
              exact ⟨fun _ => .here run signal, fun _ => signal⟩
          | false =>
              simp only [signal] at done
              rw [ih signal done]
              refine ⟨fun later => .later run signal later, ?_⟩
              intro gives
              cases gives with
              | here same isSignal =>
                  rw [run] at same
                  cases same
                  rw [signal] at isSignal
                  cases isSignal
              | later same _ later =>
                  rw [run] at same
                  cases same
                  exact later

/-- What came before shows only if there are no statements. -/
theorem evalStatements_ne_nil {statements : List Node} (some : statements ≠ []) (other : Value) :
    evalStatements call scope last statements = evalStatements call scope other statements := by
  cases statements with
  | nil => exact absurd rfl some
  | cons node more => rw [evalStatements, evalStatements]

end Statements

/-! ## Sessions -/

namespace Session

/-- How a session ends in which the statements of a program were run. -/
def ended (root : Nat) : EStateM.Result Cut Store Value → Outcome × Session
  | .ok value store => (.value value.unwrapped, { root, store })
  | .error cut store => (.cut cut, { root, store })

theorem eval_program {source : String} {line : Int} {statements : List Node}
    (read : parse source = .ok (.program line statements)) (session : Session) (depth : Nat) :
    session.eval depth source = ended session.root
      (evalStatements (apply depth) session.root .null statements { session.store with log := [] }) := by
  unfold eval
  rw [read]
  simp only [evalNode, run, Node.eval, bind, EStateM.bind]
  cases evalStatements (apply depth) session.root .null statements { session.store with log := [] } <;>
    rfl

/-- Going on with statements is entering them anew, but for what is on the log before. -/
theorem ended_evalStatements (root depth : Nat) (last : Value) (statements : List Node) (store : Store) :
    let resumed := ended root (evalStatements (apply depth) root last statements store)
    let entered :=
      ended root (evalStatements (apply depth) root .null statements { store with log := [] })
    resumed.1 = (if statements.isEmpty then .value last.unwrapped else entered.1) ∧
      resumed.2.root = entered.2.root ∧
      resumed.2.store = { entered.2.store with log := entered.2.store.log ++ store.log } := by
  cases statements with
  | nil => exact ⟨rfl, rfl, rfl⟩
  | cons node more =>
      -- With a statement to run, the value before it does not show.
      have carried := evalStatements_afterLog depth root .null (node :: more)
        { store with log := [] } store.log
      rw [evalStatements_ne_nil (by simp) .null]
      simp only [List.nil_append] at carried
      rw [carried]
      cases evalStatements (apply depth) root .null (node :: more) { store with log := [] } <;>
        exact ⟨rfl, rfl, rfl⟩

end Session

/-- Running a program in one piece or in two entries is the same. What is read of two sources with a
semicolon between them is what is read of the first and of the second as far down, one behind the other,
or the error of the second. If no statement of the first gives a signal, then running them in one piece
prints what the two entries print, leaves the scopes that they leave and gives what the second gives, or
the first if the second has no statements; otherwise it does what the first does alone. -/
theorem one_piece_or_two_entries (first second : String) (program : Node)
    (read : parse first = .ok program) :
    (∃ line, parse (first ++ "\n;" ++ second) = (parse (placedBelow first second)).map fun more =>
      .program line (program.statements ++ more.statements)) ∧
    ∀ more, parse (placedBelow first second) = .ok more →
    ∀ (session alone : Session) (depth : Nat) (value : Value),
      session.eval depth first = (.value value, alone) →
      let joined := session.eval depth (first ++ "\n;" ++ second)
      let entered := alone.eval depth (placedBelow first second)
      let signal := GivesSignal (apply depth) session.root { session.store with log := [] }
        program.statements
      (signal → joined = (.value value, alone)) ∧
      (¬signal →
        joined.1 = (if more.statements.isEmpty then .value value else entered.1) ∧
        joined.2.store.output = alone.store.output ++ entered.2.store.output ∧
        joined.2.store.scopes = entered.2.store.scopes ∧
        joined.2.store.nextId = entered.2.store.nextId ∧ joined.2.root = entered.2.root) := by
  obtain ⟨line, joins⟩ := parse_joined second read
  refine ⟨⟨line, joins⟩, ?_⟩
  intro more readMore session alone depth value completed joined entered signal
  obtain ⟨start, front, rfl, -⟩ := exists_program_of_parse read
  obtain ⟨below, back, rfl, -⟩ := exists_program_of_parse readMore
  rw [readMore] at joins
  have whole : joined = _ := Session.eval_program joins session depth
  rw [Session.eval_program read] at completed
  cases ran : evalStatements (apply depth) session.root .null front { session.store with log := [] } with
  | error cut after =>
      rw [ran] at completed
      cases completed
  | ok last after =>
      rw [ran] at completed
      cases completed
      -- The first part ends with a signal just if one of its statements gave one, and then nothing
      -- of the second part is run.
      have signals : last.isSignal = true ↔ signal := isSignal_iff_givesSignal rfl ran
      simp only [Node.statements, evalStatements_append_of_ok rfl ran] at whole
      constructor
      · intro given
        rw [if_pos (signals.mpr given)] at whole
        exact whole
      · intro none
        have ordinary : ¬last.isSignal = true := fun given => none (signals.mp given)
        rw [if_neg ordinary] at whole
        have entering : entered = _ :=
          Session.eval_program readMore { session with store := after } depth
        obtain ⟨outcome, root, store⟩ :=
          Session.ended_evalStatements session.root depth last back after
        rw [whole, entering]
        refine ⟨outcome, ?_, ?_, ?_, root⟩
        · exact Store.output_of_log (by rw [store])
        · rw [store]
        · rw [store]

/-- A name that the first entry binds and the second uses. -/
theorem one_piece_or_two_entries_puts :
    let first := "let a = true"
    let second := "puts(a)"
    let alone := (Session.new.eval 0 first).2
    let joined := Session.new.eval 0 (first ++ "\n;" ++ second)
    let entered := alone.eval 0 (placedBelow first second)
    (∃ program, parse first = .ok program) ∧ (∃ more, parse (placedBelow first second) = .ok more) ∧
      Session.new.eval 0 first = (.value .null, alone) ∧ joined.1 = entered.1 ∧
      joined.2.store.output = alone.store.output ++ entered.2.store.output ∧
      joined.2.store.scopes = entered.2.store.scopes := by
  intro first second alone joined entered
  have read : parse first = .ok (.program 1 [.binding 1 ⟨1, "a"⟩ (.boolean 1 true)]) := by
    cbv
  have readMore : parse (placedBelow first second) =
      .ok (.program 2 [.expression 2 (.call 2 (.identifier 2 "puts") [.identifier 2 "a"])]) := by
    cbv
  have ran : ∃ after, evalStatements (apply 0) Session.new.root .null
      [.binding 1 ⟨1, "a"⟩ (.boolean 1 true)] { Session.new.store with log := [] } =
        .ok .null after :=
    ⟨_, rfl⟩
  obtain ⟨after, ran⟩ := ran
  have completed : Session.new.eval 0 first = (.value .null, alone) := by
    refine Prod.ext ?_ rfl
    rw [Session.eval_program read, ran]
    rfl
  have quiet := mt (isSignal_iff_givesSignal rfl ran).mpr Bool.false_ne_true
  obtain ⟨outcome, printed, scopes, -⟩ :=
    ((one_piece_or_two_entries first second _ read).2 _ readMore _ alone 0 _ completed).2 quiet
  exact ⟨⟨_, read⟩, ⟨_, readMore⟩, completed, outcome, printed, scopes⟩

end Treewalk

import Mathlib
import Treewalk.Eval.Node

/-!
# How runs end

`run.Ends store done cut` says of a run that is started in `store`: if it gives a value, then `done`
holds of the value and of the store it leaves, and if it is cut short, then `cut` holds of the store it
leaves. One of the two always happens, so nothing is assumed about the run.

Every effect has its equation here, and a sequence of runs is taken apart by `ends_bind` and
`ends_andThen`. Facts about programs are proved from these equations, without looking into the effects
themselves.
-/

namespace Treewalk

namespace Eval

variable {α β : Type}

/-- How a run ends that is started in `store`. -/
def Ends (run : Eval α) (store : Store) (done : α → Store → Prop) (cut : Store → Prop) : Prop :=
  match run store with
  | .ok value after => done value after
  | .error _ after => cut after

section Rules

variable {run : Eval α} {next : α → Eval β} {store : Store} {done done' : α → Store → Prop}
  {cut cut' : Store → Prop}

/-- A weaker ending. -/
theorem Ends.imp (ends : run.Ends store done cut)
    (weaker : ∀ value after, done value after → done' value after)
    (weakerCut : ∀ after, cut after → cut' after) : run.Ends store done' cut' := by
  unfold Ends at ends ⊢
  cases result : run store with
  | ok value after =>
      rw [result] at ends
      exact weaker value after ends
  | error _ after =>
      rw [result] at ends
      exact weakerCut after ends

/-- An ending that says nothing about the run. -/
theorem ends_of_forall (done_ : ∀ value after, done value after) (cut_ : ∀ after, cut after) :
    run.Ends store done cut := by
  unfold Ends
  cases run store with
  | ok value after => exact done_ value after
  | error _ after => exact cut_ after

@[simp]
theorem ends_pure (value : α) : (pure value : Eval α).Ends store done cut ↔ done value store :=
  Iff.rfl

@[simp]
theorem ends_bind {done : β → Store → Prop} :
    (run >>= next).Ends store done cut ↔
      run.Ends store (fun value after => (next value).Ends after done cut) cut := by
  unfold Ends
  simp only [bind, EStateM.bind]
  cases run store <;> rfl

@[simp]
theorem ends_throw (reason : Cut) : (throw reason : Eval α).Ends store done cut ↔ cut store :=
  Iff.rfl

end Rules

section Effects

variable {store : Store} {cut : Store → Prop}

@[simp]
theorem ends_get {done : Store → Store → Prop} :
    (get : Eval Store).Ends store done cut ↔ done store store :=
  Iff.rfl

@[simp]
theorem ends_fresh {done : Nat → Store → Prop} :
    fresh.Ends store done cut ↔
      done store.nextId { store with nextId := store.nextId + 1 } :=
  Iff.rfl

@[simp]
theorem ends_record {event : Event} {done : Unit → Store → Prop} :
    (record event).Ends store done cut ↔ done () { store with log := event :: store.log } :=
  Iff.rfl

@[simp]
theorem ends_assign {scope : Nat} {name : String} {value : Value} {done : Unit → Store → Prop} :
    (assign scope name value).Ends store done cut ↔
      done () { store.bind scope name value with
        log := .bound scope name value :: store.log } :=
  Iff.rfl

@[simp]
theorem ends_openScope {home : Nat} {done : Nat → Store → Prop} :
    (openScope home).Ends store done cut ↔
      done store.scopes.size { store.addScope (some home) with
        log := .opened store.scopes.size home :: store.log } :=
  Iff.rfl

@[simp]
theorem ends_raise {line : Int} {fault : Fault} {done : Value → Store → Prop} :
    (raise line fault).Ends store done cut ↔
      done (.error store.nextId line fault) { store with
        nextId := store.nextId + 1, log := .raised store.nextId line fault :: store.log } :=
  Iff.rfl

@[simp]
theorem ends_giveBack {value : Value} {done : Value → Store → Prop} :
    (giveBack value).Ends store done cut ↔
      done (.result store.nextId value) { store with
        nextId := store.nextId + 1, log := .returned store.nextId value :: store.log } :=
  Iff.rfl

/-- Only an ordinary value is taken on; a signal ends the sequence where it was given. -/
@[simp]
theorem ends_andThen {run : Eval Value} {next : Value → Eval Value} {done : Value → Store → Prop} :
    (andThen run next).Ends store done cut ↔
      run.Ends store
        (fun value after =>
          if value.isSignal then done value after else (next value).Ends after done cut)
        cut := by
  unfold andThen
  rw [ends_bind]
  constructor
  · intro ends
    refine ends.imp ?_ fun _ h => h
    intro value after h
    split at h <;> simp_all
  · intro ends
    refine ends.imp ?_ fun _ h => h
    intro value after h
    split at h <;> simp_all

/-- A call of a function: a new scope, its parameters, its body, and the event that ends it. -/
theorem ends_apply_function {rest id home : Nat} {parameters : List Name} {body : Node}
    {arguments : List Value} {line : Int} {done : Value → Store → Prop}
    (matching : arguments.length = parameters.length) :
    (apply (rest + 1) (.function id parameters body home) arguments line).Ends store done cut ↔
      (assignAll store.scopes.size parameters arguments).Ends
        { store.addScope (some home) with log := .opened store.scopes.size home :: store.log }
        (fun _ entered =>
          (body.eval (apply rest) store.scopes.size).Ends entered
            (fun value left => done value.unwrapped
              { left with log := .closed store.scopes.size value.unwrapped :: left.log })
            cut)
        cut := by
  unfold apply
  simp only [matching, ne_eq, not_true_eq_false, if_false, ends_bind, ends_openScope, ends_record,
    ends_pure]

end Effects

end Eval

end Treewalk

import Treewalk.Proofs.Eval.Frame
import Treewalk.Proofs.Eval.Known
import Treewalk.Proofs.Session.Layout

/-!
# Calls can be repeated

Between a call and the same call later other calls are made. They change no scope that was there before,
so what they leave behind is an interlude: scopes and ids that were given out after the first call was
started. The first call, carried along the renaming that moves its own scopes and ids behind the
interlude, is the second call (`Interlude.run_call`). A renaming shows neither in what is printed nor
in how a value is written.
-/

namespace Treewalk

open Eval

/-- An event under other names. -/
def Event.rename (R : Renaming) : Event → Event
  | .printed line => .printed line
  | .bound scope name value => .bound (R.scope scope) name (value.rename R)
  | .opened scope home => .opened (R.scope scope) (R.scope home)
  | .closed scope value => .closed (R.scope scope) (value.rename R)
  | .returned id value => .returned (R.object id) (value.rename R)
  | .raised id line fault => .raised (R.object id) (R.line line) fault

/-- A store, and the same store later with nothing changed that was there. -/
structure Interlude where
  base : Store
  later : Store
  positive : 0 < base.nextId
  ids : base.nextId ≤ later.nextId
  untouched : base.Untouched later

namespace Interlude

variable (I : Interlude)

/-- How many scopes came in between. -/
def more : Nat := I.later.scopes.size - I.base.scopes.size

/-- Names that are given out after the base are moved behind those of the interlude. -/
def shift : Renaming :=
  .beyond I.base.nextId I.base.scopes.size (I.later.nextId - I.base.nextId) I.more I.positive

/-- A scope as it is after the interlude. -/
def scope (scope : Scope) : Scope := scope.moved I.shift.scope (Value.rename I.shift)

/-- A store that goes on from the base, with the interlude put in. -/
def insert (store : Store) : Store where
  scopes := (store.scopes.extract 0 I.base.scopes.size).map I.scope ++
    I.later.scopes.extract I.base.scopes.size I.later.scopes.size ++
    (store.scopes.extract I.base.scopes.size store.scopes.size).map I.scope
  nextId := I.shift.object store.nextId
  log := store.log.map (Event.rename I.shift)

variable {I} {store : Store}

theorem size_add_more (I : Interlude) : I.base.scopes.size + I.more = I.later.scopes.size :=
  Nat.add_sub_cancel' I.untouched.size

theorem fixes_base : I.shift.Fixes I.base := Renaming.beyond_fixes _ _ _ _

theorem shift_scope (i : Nat) :
    I.shift.scope i = if i < I.base.scopes.size then i else i + I.more :=
  rfl

theorem shift_scope_of_le {i : Nat} (new : I.base.scopes.size ≤ i) : I.shift.scope i = i + I.more :=
  if_neg (by omega)

theorem shift_object_of_le {i : Nat} (new : I.base.nextId ≤ i) :
    I.shift.object i = i + (I.later.nextId - I.base.nextId) :=
  if_neg (by omega)

/-! ## Scopes after an interlude -/

/-- The scopes of the base come first, then those of the interlude, then those that were made since. -/
theorem getElem?_insert (below : I.base.Below store) (i : Nat) :
    (I.insert store).scopes[i]? =
      if i < I.base.scopes.size then store.scopes[i]?.map I.scope
      else if i < I.later.scopes.size then I.later.scopes[i]?
      else store.scopes[i - I.more]?.map I.scope := by
  have grown := I.size_add_more
  have front : min I.base.scopes.size store.scopes.size - 0 = I.base.scopes.size := by
    have inside := below.scopes
    omega
  have both : I.base.scopes.size + (I.later.scopes.size - I.base.scopes.size) =
      I.later.scopes.size := by
    omega
  simp only [insert, Array.getElem?_append, Array.size_append, Array.size_map, Array.size_extract,
    Array.getElem?_map, Array.getElem?_extract, front, both, Nat.zero_add, Nat.min_self]
  by_cases before : i < I.base.scopes.size
  · rw [if_pos (by omega), if_pos before, if_pos before, if_pos before]
  by_cases between : i < I.later.scopes.size
  · have place : I.base.scopes.size + (i - I.base.scopes.size) = i := by omega
    rw [if_pos between, if_neg before, if_neg before, if_pos between, if_pos (by omega), place]
  · have place : I.base.scopes.size + (i - I.later.scopes.size) = i - I.more := by omega
    rw [if_neg between, if_neg before, if_neg between, place]
    split
    · rfl
    · rw [Array.getElem?_eq_none (by omega)]

/-- Every scope is found where it was moved to. -/
theorem getElem?_insert_scope (below : I.base.Below store) (i : Nat) :
    (I.insert store).scopes[I.shift.scope i]? = store.scopes[i]?.map I.scope := by
  have grown := I.size_add_more
  rw [getElem?_insert below, shift_scope]
  by_cases old : i < I.base.scopes.size
  · rw [if_pos old, if_pos old]
  · rw [if_neg old, if_neg (by omega), if_neg (by omega), Nat.add_sub_cancel]

theorem size_insert (below : I.base.Below store) :
    (I.insert store).scopes.size = I.shift.scope store.scopes.size := by
  have grown := I.size_add_more
  have inside := below.scopes
  rw [shift_scope_of_le inside]
  simp only [insert, Array.size_append, Array.size_map, Array.size_extract]
  omega

theorem scopes_insert_bind (below : I.base.Below store) (scope : Nat) (name : String) (value : Value) :
    ((I.insert store).bind (I.shift.scope scope) name (value.rename I.shift)).scopes =
      (I.insert (store.bind scope name value)).scopes := by
  have grown := I.size_add_more
  have bound : I.base.Below (store.bind scope name value) := ⟨below.ids, by simpa using below.scopes⟩
  have set (found : Option Scope) :
      (found.map I.scope).map (fun s => { s with bindings := s.bindings.set name (value.rename I.shift) }) =
        (found.map fun s => { s with bindings := s.bindings.set name value }).map I.scope := by
    cases found with
    | none => rfl
    | some s => simp [Interlude.scope, Scope.moved, Bindings.set_map]
  refine Array.ext_getElem? fun i => ?_
  rw [Store.getElem?_bind, getElem?_insert below, getElem?_insert bound]
  by_cases before : i < I.base.scopes.size
  · have same : i = I.shift.scope scope ↔ i = scope := by
      rw [shift_scope]
      split <;> omega
    simp only [before, if_true, same, Store.getElem?_bind]
    split
    · exact set _
    · rfl
  by_cases between : i < I.later.scopes.size
  · have other : i ≠ I.shift.scope scope := by
      rw [shift_scope]
      split <;> omega
    rw [if_neg other]
    simp only [before, between, if_true, if_false]
  · have same : i = I.shift.scope scope ↔ i - I.more = scope := by
      rw [shift_scope]
      split <;> omega
    simp only [before, between, if_false, same, Store.getElem?_bind]
    split
    · exact set _
    · rfl

theorem scopes_insert_addScope (below : I.base.Below store) (home : Nat) :
    ((I.insert store).addScope (some (I.shift.scope home))).scopes =
      (I.insert (store.addScope (some home))).scopes := by
  have grown := I.size_add_more
  have inside := below.scopes
  have added : I.base.Below (store.addScope (some home)) := ⟨below.ids, by simp; omega⟩
  have size : (I.insert store).scopes.size = store.scopes.size + I.more :=
    (size_insert below).trans (shift_scope_of_le inside)
  refine Array.ext_getElem? fun i => ?_
  rw [Store.getElem?_addScope, size, getElem?_insert below, getElem?_insert added]
  by_cases before : i < I.base.scopes.size
  · simp only [before, if_true, Store.getElem?_addScope]
    rw [if_neg (by omega), if_neg (by omega)]
  by_cases between : i < I.later.scopes.size
  · simp only [before, between, if_true, if_false]
    rw [if_neg (by omega)]
  · have same : i = store.scopes.size + I.more ↔ i - I.more = store.scopes.size := by omega
    simp only [before, between, if_false, same, Store.getElem?_addScope]
    split <;> rfl

/-- The base with the interlude put in is the later store. -/
theorem insert_base (rooted : I.base.Rooted) :
    I.insert { I.base with log := [] } = { I.later with log := [] } := by
  have grown := I.size_add_more
  have below : I.base.Below { I.base with log := [] } := ⟨le_rfl, le_rfl⟩
  have scopes : (I.insert { I.base with log := [] }).scopes = I.later.scopes := by
    refine Array.ext_getElem? fun i => ?_
    rw [getElem?_insert below]
    by_cases before : i < I.base.scopes.size
    · rw [if_pos before, I.untouched.scopes i before]
      exact rooted.scopes _ fixes_base i
    by_cases between : i < I.later.scopes.size
    · rw [if_neg before, if_pos between]
    · have outside : I.base.scopes[i - I.more]? = none := Array.getElem?_eq_none (by omega)
      rw [if_neg before, if_neg between, outside, Array.getElem?_eq_none (by omega)]
      rfl
  have ids : I.shift.object I.base.nextId = I.later.nextId := by
    have counted := I.ids
    rw [shift_object_of_le le_rfl]
    omega
  calc I.insert { I.base with log := [] }
    _ = { (I.insert { I.base with log := [] }) with scopes := I.later.scopes } := by rw [← scopes]
    _ = { I.later with log := [] } := by simp [insert, ids]

theorem insert_renumber (below : I.base.Below store) (log : List Event) :
    ({ I.insert store with
        nextId := I.shift.object store.nextId + 1, log := log.map (Event.rename I.shift) } : Store) =
      I.insert { store with nextId := store.nextId + 1, log } := by
  have counted := below.ids
  have next : I.shift.object (store.nextId + 1) = I.shift.object store.nextId + 1 := by
    rw [shift_object_of_le counted, shift_object_of_le (by omega)]
    omega
  rw [← next]
  rfl

theorem insert_bound (below : I.base.Below store) (scope : Nat) (name : String) (value : Value) :
    { (I.insert store).bind (I.shift.scope scope) name (value.rename I.shift) with
      log := .bound (I.shift.scope scope) name (value.rename I.shift) :: (I.insert store).log } =
      I.insert { store.bind scope name value with log := .bound scope name value :: store.log } := by
  dsimp only
  rw [scopes_insert_bind below]
  rfl

theorem insert_opened (below : I.base.Below store) (home : Nat) :
    openScope (I.shift.scope home) (I.insert store) = .ok (I.shift.scope store.scopes.size) (I.insert
      { store.addScope (some home) with log := .opened store.scopes.size home :: store.log }) := by
  calc openScope (I.shift.scope home) (I.insert store)
    _ = .ok (I.insert store).scopes.size { (I.insert store).addScope (some (I.shift.scope home)) with
        log := .opened (I.insert store).scopes.size (I.shift.scope home) :: (I.insert store).log } := rfl
    _ = _ := by
      dsimp only
      rw [size_insert below, scopes_insert_addScope below]
      rfl

/-- What was printed does not show the interlude. -/
theorem output_insert (I : Interlude) (store : Store) : (I.insert store).output = store.output := by
  simp only [Store.output, insert, ← List.map_reverse, List.map_map]
  congr 1
  refine List.map_congr_left fun event _ => ?_
  cases event <;> rfl

end Interlude

/-! ## Runs after an interlude -/

open Discipline

namespace Interlude

/-- The same run after an interlude. -/
def translation (I : Interlude) : Translation where
  line := id
  id := I.shift.object
  scope := I.shift.scope
  key := Key.rename I.shift
  value := Value.rename I.shift
  store := I.insert

variable {I : Interlude}

theorem render_shift (node : Node) : (node.mapLines I.shift.line).render = node.render :=
  congrArg Node.render (Node.mapLines_id node)

theorem translation_lawful : I.translation.Lawful (both (signalFree Node.Literal) (above I.base)) where
  zero := rfl
  atom atomic other := atomic.rename other
  number literal := congrArg Value.number (Number.rename_of_ofText? literal.1)
  array := Value.rename_array
  hash := Value.rename_hash
  function _ _ _ _ := rfl
  kind := Value.kind_rename
  truthy := Value.truthy_rename
  unwrapped := Value.unwrapped_rename
  key? := Value.key?_rename
  insert := Entries.insert_rename
  unary id operator _ := Operator.unary_rename id operator _
  binary id operator _ _ := Operator.binary_rename id operator _ _
  index _ _ := Operator.index_rename _ _
  builtin id builtin _ := Builtin.apply_rename id builtin _
  printed builtin plain :=
    builtin.printed_rename (fun argument member => (plain argument member).1) fun node _ => render_shift node
  lookup scope name inv := Store.lookup_of_moved (getElem?_insert_scope inv.2) I.shift.ordered scope name
  fresh {store} inv := congrArg (EStateM.Result.ok _) (insert_renumber inv.2 store.log)
  raise {store} line fault inv := congrArg (EStateM.Result.ok _)
    (insert_renumber inv.2 (.raised store.nextId line fault :: store.log))
  giveBack {store} value inv := congrArg (EStateM.Result.ok _)
    (insert_renumber inv.2 (.returned store.nextId value :: store.log))
  assign scope name value inv := congrArg (EStateM.Result.ok ()) (insert_bound inv.2 scope name value)
  openScope home inv := insert_opened inv.2 home
  print _ _ := rfl
  close _ _ _ := rfl

/-- A call of known values is made after the interlude as it was before. -/
theorem run_call {callee : Value} {arguments : List Value} {depth : Nat} {line : Int} {value : Value}
    {after : Store} (clean : I.base.Clean Node.Literal) (rooted : I.base.Rooted)
    (plainCallee : callee.Plain Node.Literal) (knownCallee : callee.Known I.base)
    (plain : ∀ argument ∈ arguments, argument.Plain Node.Literal)
    (known : ∀ argument ∈ arguments, argument.Known I.base)
    (given : apply depth callee arguments line { I.base with log := [] } = .ok value after) :
    apply depth callee arguments line { I.later with log := [] } =
      .ok (value.rename I.shift) (I.insert after) := by
  have carried := Translation.apply_carries (translation_lawful (I := I))
    (both_kept signalFree_kept above_kept) depth { I.base with log := [] } line .missing [] callee arguments
    ⟨clean.forget, le_rfl, le_rfl⟩ ⟨trivial, trivial⟩ ⟨plainCallee, trivial⟩
    fun argument member => ⟨plain argument member, trivial⟩
  have same : arguments.map (Value.rename I.shift) = arguments.map id :=
    List.map_congr_left fun argument member => known argument member _ fixes_base
  unfold Translation.Carries at carried
  rw [given] at carried
  calc apply depth callee arguments line { I.later with log := [] }
    _ = apply depth (callee.rename I.shift) (arguments.map (Value.rename I.shift)) line
          (I.insert { I.base with log := [] }) := by
        rw [knownCallee _ fixes_base, same, List.map_id, insert_base rooted]
    _ = .ok (value.rename I.shift) (I.insert after) := carried

/-- How a value that a call gives is written does not show the interlude. -/
theorem display_shift (I : Interlude) {value : Value} (settled : value.Settled Node.Literal) :
    (value.rename I.shift).display = value.display := by
  by_cases failed : value.kind = .error
  · cases value with
    | error => rfl
    | _ => cases failed
  · exact (settled.plain failed).display_rename fun node _ => render_shift node

end Interlude

/-! ## Calls in a session -/

/-- Sessions that are left when some calls are made, of whatever values and however they end. -/
inductive Session.Calls (session : Session) : Session → Prop
  | none : Calls session session
  | call {later : Session} (depth : Nat) (callee : Value) (arguments : List Value) (line : Int) :
      Calls session later → Calls session (later.run (apply depth callee arguments line)).2

namespace Session

/-- Calls change no scope that was there before and give out nothing twice. -/
theorem Calls.untouched {session later : Session} (calls : session.Calls later) :
    session.store.Untouched later.store ∧ session.store.nextId ≤ later.store.nextId := by
  induction calls with
  | none => exact ⟨.of_scopes_eq rfl, le_rfl⟩
  | @call later depth callee arguments line _ ih =>
      have framed : sealed.Follows { later.store with log := [] } (apply depth callee arguments line) :=
        sealed_answers depth _ line .missing [] callee arguments trivial trivial trivial fun _ _ => trivial
      have counted : (above later.store).Follows { later.store with log := [] }
          (apply depth callee arguments line) :=
        above_answers depth _ line .missing [] callee arguments ⟨le_rfl, le_rfl⟩ trivial trivial
          fun _ _ => trivial
      have untouched : Store.Untouched later.store (later.run (apply depth callee arguments line)).2.store := by
        rcases run_ends framed with ⟨_, _, arrives⟩ | ⟨_, cut⟩
        · have moved := scopewise_arrives.mp arrives
          exact ⟨moved.size, moved.scopes⟩
        · exact ⟨cut.size, cut.scopes⟩
      have below : Store.Below later.store (later.run (apply depth callee arguments line)).2.store := by
        rcases run_ends counted with ⟨_, _, arrives⟩ | ⟨_, cut⟩
        · exact above_arrives.mp arrives
        · exact cut
      exact ⟨ih.1.trans untouched, ih.2.trans below.ids⟩

/-- A run that gave a value, as a run of its piece. -/
theorem ok_of_run {session after : Session} {piece : Eval Value} {value : Value}
    (given : session.run piece = (.value value, after)) :
    piece { session.store with log := [] } = .ok value after.store := by
  unfold run at given
  split at given
  case h_1 run =>
    cases given
    exact run
  case h_2 => cases given

theorem run_of_ok {session : Session} {piece : Eval Value} {value : Value} {store : Store}
    (given : piece { session.store with log := [] } = .ok value store) :
    session.run piece = (.value value, { session with store }) := by
  unfold run
  rw [given]

end Session

/-- Calls can be repeated. In every session that can be reached the values of names are held. If a call of
held values gives a value, which is held in turn if it is an ordinary one, then after it, and after other
calls of whatever values and however they end, the same call gives a value again. It prints the same, and
what it gives is of the same kind and written the same; an error has the same line and fault. -/
theorem calls_are_repeatable {session : Session} (reachable : session.Reachable) :
    (∀ name value, session.store.lookup session.root name = some value → session.Holds value) ∧
    ∀ (depth : Nat) (callee : Value) (arguments : List Value) (line : Int) (value : Value)
      (after : Session), session.Holds callee → (∀ argument ∈ arguments, session.Holds argument) →
      session.run (apply depth callee arguments line) = (.value value, after) →
      (value.isSignal = false → after.Holds value) ∧
      ∀ later, after.Calls later →
        ∃ again left, later.run (apply depth callee arguments line) = (.value again, left) ∧
          left.store.output = after.store.output ∧ again.kind = value.kind ∧
          again.display = value.display ∧
          ∀ id place fault, value = .error id place fault →
            ∃ other, again = .error other place fault := by
  have is := reachable.sound
  refine ⟨fun name value found => is.holds_lookup found, ?_⟩
  intro depth callee arguments line value after held heldAll first
  have given := Session.ok_of_run first
  refine ⟨?_, ?_⟩
  · intro ordinary
    have holds := (Session.sound_call is depth line held heldAll).2 value
    rw [first] at holds
    exact holds rfl ordinary
  intro later others
  have made : session.Calls after := by
    have start : session.Calls session := .none
    have made := start.call depth callee arguments line
    rwa [first] at made
  have untouched := made.untouched.1.trans others.untouched.1
  have ids := made.untouched.2.trans others.untouched.2
  let I : Interlude := ⟨session.store, later.store, is.rooted.positive, ids, untouched⟩
  have repeated := Session.run_of_ok (I.run_call is.clean is.rooted held.plain held.known
    (fun argument member => (heldAll argument member).plain)
    (fun argument member => (heldAll argument member).known) given)
  have settled : value.Settled Node.Literal := by
    have ends := apply_clean depth callee line (fun _ _ _ _ same => (same ▸ held.plain).body) is.clean.forget
      fun argument member => (heldAll argument member).plain
    unfold Ends at ends
    rw [given] at ends
    exact ends.2
  refine ⟨_, _, repeated, I.output_insert _, Value.kind_rename value, I.display_shift settled, ?_⟩
  rintro id place fault rfl
  exact ⟨_, rfl⟩

/-- A function that prints, called again after it was called with something else. -/
theorem calls_are_repeatable_puts :
    let session := (Session.new.eval 1 "let f = fn(x) \x7b puts(x); [x] \x7d").2
    let f : Value := .function 1 [⟨1, "x"⟩]
      (.block 1 [.expression 1 (.call 1 (.identifier 1 "puts") [.identifier 1 "x"]),
        .expression 1 (.array 1 [.identifier 1 "x"])]) 0
    let after := (session.run (apply 1 f [.text "a"] 1)).2
    let later := (after.run (apply 1 f [.text "b"] 2)).2
    session.Reachable ∧ session.store.lookup session.root "f" = some f ∧
      ∃ again left, later.run (apply 1 f [.text "a"] 1) = (.value again, left) ∧
        left.store.output = "a\n" ∧ again.display = "[a]" := by
  intro session f after later
  have read : parse "let f = fn(x) \x7b puts(x); [x] \x7d" = .ok (.program 1 [.binding 1 ⟨1, "f"⟩
      (.function 1 [⟨1, "x"⟩]
        (.block 1 [.expression 1 (.call 1 (.identifier 1 "puts") [.identifier 1 "x"]),
          .expression 1 (.array 1 [.identifier 1 "x"])]))]) := by
    cbv
  have isSession : session = ⟨0, ⟨#[⟨none, [("f", f)]⟩], 2, [.bound 0 "f" f]⟩⟩ := by
    show (Session.new.eval 1 _).2 = _
    unfold Session.eval
    rw [read]
    rfl
  have reachable : session.Reachable := .eval 1 _ .new
  have found : session.store.lookup session.root "f" = some f := by
    rw [isSession]
    cbv
  have given : ∃ store, apply 1 f [.text "a"] 1 { session.store with log := [] } =
      .ok (.array 3 [.text "a"]) store ∧ store.output = "a\n" := by
    rw [isSession]
    dsimp only [f]
    exact ⟨_, by cbv, by cbv⟩
  obtain ⟨store, given, printed⟩ := given
  have first := Session.run_of_ok given
  have isAfter : after = { session with store } := congrArg Prod.snd first
  have held := (calls_are_repeatable reachable).1 "f" f found
  have text : ∀ argument ∈ [Value.text "a"], session.Holds argument := by
    intro argument member
    rw [List.mem_singleton.mp member]
    exact ⟨.text, Value.Atomic.known trivial (by simp [Value.kind])⟩
  have others : after.Calls later := Session.Calls.none.call 1 f [.text "b"] 2
  obtain ⟨again, left, repeated, output, -, display, -⟩ :=
    ((calls_are_repeatable reachable).2 1 f [.text "a"] 1 _ after held text (isAfter ▸ first)).2 later others
  refine ⟨reachable, found, again, left, repeated, ?_, ?_⟩
  · rw [output, isAfter]
    exact printed
  · rw [display]
    cbv

end Treewalk

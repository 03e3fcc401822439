import Treewalk.Proofs.Eval.Signals
import Treewalk.Proofs.Store.History

/-!
# Scopes are nested finite maps

A host makes scopes and binds names in them, and it runs trees, sources and calls; `Store.Course` is any
row of such steps, with the history of what was done to scopes. Of a run the history is read off its log:
a scope is made for each call of a function and for nothing else.

Every run goes on with the history that it finds (`Discipline.chronicled_lawful`, and
`Discipline.chronicled_answers` for calls), so every store on a course is what its history made it
(`Store.Course.nested`). Looking a name up, binding one and the order of names are told by the history
alone.
-/

namespace Treewalk

open Eval

/-! ## What runs add to the history -/

/-- What an event did to scopes. -/
def Event.act? : Event → Option Act
  | .bound scope name value => some (.set scope name value)
  | .opened _ home => some (.child home)
  | _ => none

/-- What the events of a log did to scopes. -/
def Store.acts (store : Store) : History := store.log.filterMap Event.act?

namespace Discipline

/-- The scope of the run is there, and the store is what the events on its log made after a history. -/
def chronicled (past : History) (scope : Nat) : Discipline where
  inv store := scope < store.scopes.size ∧ store.Nested (store.acts ++ past)
  moves before after := before.scopes.size ≤ after.scopes.size
  plain store value := value.HomesBelow store.scopes.size
  stops store value after :=
    (scope < after.scopes.size ∧ after.Nested (after.acts ++ past)) ∧
      store.scopes.size ≤ after.scopes.size ∧ value.HomesBelow after.scopes.size
  cuts store after :=
    (scope < after.scopes.size ∧ after.Nested (after.acts ++ past)) ∧
      store.scopes.size ≤ after.scopes.size
  fact _ := True
  assigns _ := True

variable {past : History} {scope : Nat}

theorem chronicled_arrives {store after : Store} {value : Value} :
    (chronicled past scope).Arrives store value after ↔
      (scope < after.scopes.size ∧ after.Nested (after.acts ++ past)) ∧
        store.scopes.size ≤ after.scopes.size ∧ value.HomesBelow after.scopes.size := by
  unfold Arrives
  split <;> exact Iff.rfl

theorem chronicled_lawful (past : History) (scope : Nat) : (chronicled past scope).Lawful scope where
  refl _ := le_rfl
  trans := le_trans
  stops_after moves stops := ⟨stops.1, moves.trans stops.2.1, stops.2.2⟩
  cuts_after moves cut := ⟨cut.1, moves.trans cut.2⟩
  mono moves homes := homes.mono moves
  atom atomic _ := atomic.homesBelow
  number _ _ := Value.Atomic.homesBelow trivial
  fresh inv := ⟨⟨inv.1, inv.2.of_scopes_eq rfl⟩, le_rfl⟩
  array _ homes := Value.homesBelow_of_inside rfl homes
  hash _ made := Value.homesBelow_hash _ fun entry member => (made entry member).2
  function inv _ := Value.homesBelow_function _ _ _ inv.1
  unary _ _ given := (Operator.unary_atomic given).homesBelow
  binary _ _ _ given := (Operator.binary_atomic given).homesBelow
  lookup {store name value} inv found := by
    obtain ⟨place, member⟩ := Store.mem_of_lookup found
    exact chronicled_arrives.mpr ⟨inv, le_rfl, inv.2.homes place _ member⟩
  index {store subject position value} inv homes given := by
    have inside : value.HomesBelow store.scopes.size := by
      rcases Operator.index_part given with rfl | part
      · exact Value.Atomic.homesBelow trivial
      · exact homes.of_mem_parts part
    exact chronicled_arrives.mpr ⟨inv, le_rfl, inside⟩
  raise inv _ _ :=
    ⟨⟨inv.1, inv.2.of_scopes_eq rfl⟩, le_rfl, Value.homesBelow_of_inside rfl fun _ member => by cases member⟩
  giveBack inv homes := ⟨⟨inv.1, inv.2.of_scopes_eq rfl⟩, le_rfl, homes.result _⟩
  assign {store name value} inv homes _ := by
    have bound := inv.2.bind inv.1 name homes
    exact ⟨⟨by simpa using inv.1, bound.of_scopes_eq rfl⟩, by simp [chronicled]⟩
  print line inv := ⟨⟨inv.1, inv.2.of_scopes_eq rfl⟩, le_rfl⟩
  builtin inv homes given :=
    chronicled_arrives.mpr ⟨⟨inv.1, inv.2.of_scopes_eq rfl⟩, le_rfl,
      Value.homesBelow_of_makes (Builtin.apply_makes given) homes⟩
  cut inv := ⟨inv, le_rfl⟩
  program _ stops := chronicled_arrives.mpr ⟨stops.1, stops.2.1, stops.2.2.unwrapped⟩

/-- Calls go on with the history, in whatever scope they are made. The body of a function is run in a
scope of its own, inside the one in which the function was made. -/
theorem chronicled_answers (past : History) (depth scope : Nat) :
    (chronicled past scope).Answers (apply depth) := by
  induction depth generalizing scope with
  | zero =>
      intro store line function nodes callee arguments inv fact homesCallee homes
      exact apply_follows (chronicled_lawful past scope) inv fact homesCallee homes (by simp)
  | succ depth ih =>
      intro store line function nodes callee arguments inv fact homesCallee homes
      refine apply_follows (chronicled_lawful past scope) inv fact homesCallee homes ?_
      intro id parameters body home rest isFunction sameDepth matching
      subst isFunction
      cases sameDepth
      have inside : ∀ outer ∈ some home, outer < store.scopes.size := by
        rintro _ ⟨⟩
        exact Value.HomesBelow.home_lt homesCallee
      have opened := inv.2.addScope inside (show (Act.child home).link? = some (some home) from rfl)
      have entering : (chronicled past store.scopes.size).inv { store.addScope (some home) with
          log := .opened store.scopes.size home :: store.log } :=
        ⟨by simp, opened.of_scopes_eq rfl⟩
      have grown : store.scopes.size ≤ (store.addScope (some home)).scopes.size := by simp
      have every : body.Every fun _ => True := Node.every_of_forall (fun _ => trivial) body
      refine ends_apply_of_body (chronicled_lawful past store.scopes.size) (ih store.scopes.size) every
        (fun _ => trivial) matching rfl entering
        (fun argument member => (homes argument member).mono grown) ?_ ?_
      · intro value left arrives
        obtain ⟨⟨_, nested⟩, further, known⟩ := chronicled_arrives.mp arrives
        have whole := grown.trans further
        exact chronicled_arrives.mpr
          ⟨⟨inv.1.trans_le whole, nested.of_scopes_eq rfl⟩, whole, known.unwrapped⟩
      · rintro left ⟨⟨_, nested⟩, further⟩
        have whole := grown.trans further
        exact ⟨⟨inv.1.trans_le whole, nested⟩, whole⟩

end Discipline

/-! ## Courses -/

open Discipline

namespace Store

/-- What a host can do, one step after the other, from a store on, with what was done to scopes meanwhile.
A value that it binds or calls may hold any functions that were made in scopes of the store. -/
inductive Course (start : Store) : History → Store → Prop
  | refl : Course start [] start
  | object {acts : History} {store : Store} : Course start acts store →
      Course start acts { store with nextId := store.nextId + 1 }
  | root {acts : History} {store : Store} : Course start acts store →
      Course start (.root :: acts) (store.addScope none)
  | child {acts : History} {store : Store} {outer : Nat} : Course start acts store →
      outer < store.scopes.size → Course start (.child outer :: acts) (store.addScope (some outer))
  | set {acts : History} {store : Store} {scope : Nat} {value : Value} (name : String) :
      Course start acts store → scope < store.scopes.size → value.HomesBelow store.scopes.size →
      Course start (.set scope name value :: acts) (store.bind scope name value)
  | tree {acts : History} {store after : Store} {scope : Nat} (depth : Nat) (node : Node) :
      Course start acts store → scope < store.scopes.size →
      after = (Session.evalNode ⟨scope, store⟩ depth node).2.store →
      Course start (after.acts ++ acts) after
  | source {acts : History} {store after : Store} {scope : Nat} (depth : Nat) (source : String) :
      Course start acts store → scope < store.scopes.size →
      after = (Session.eval ⟨scope, store⟩ depth source).2.store →
      Course start (after.acts ++ acts) after
  | call {acts : History} {store after : Store} {scope : Nat} {callee : Value} {arguments : List Value}
      (depth : Nat) (line : Int) : Course start acts store → scope < store.scopes.size →
      callee.HomesBelow store.scopes.size →
      (∀ argument ∈ arguments, argument.HomesBelow store.scopes.size) →
      after = (Session.run ⟨scope, store⟩ (apply depth callee arguments line)).2.store →
      Course start (after.acts ++ acts) after

end Store

namespace Session

variable {session : Session} {past : History}

/-- What a run leaves that keeps to the history. -/
theorem nested_run {piece : Eval Value}
    (follows : (chronicled past session.root).Follows { session.store with log := [] } piece) :
    (session.run piece).2.store.Nested ((session.run piece).2.store.acts ++ past) := by
  rcases run_ends follows with ⟨value, -, arrives⟩ | ⟨-, cut⟩
  · exact (chronicled_arrives.mp arrives).1.2
  · exact cut.1.2

variable (nested : session.store.Nested past) (inside : session.root < session.store.scopes.size)

include nested inside

theorem chronicled_start : (chronicled past session.root).inv { session.store with log := [] } :=
  ⟨inside, nested.of_scopes_eq rfl⟩

theorem nested_evalNode (depth : Nat) (node : Node) :
    (session.evalNode depth node).2.store.Nested
      ((session.evalNode depth node).2.store.acts ++ past) := by
  have every : node.Every fun _ => True := Node.every_of_forall (fun _ => trivial) node
  exact nested_run (eval_follows (chronicled_lawful past session.root)
    (chronicled_answers past depth session.root) node every (fun _ _ => trivial) _
    (chronicled_start nested inside))

theorem nested_eval (depth : Nat) (source : String) :
    (session.eval depth source).2.store.Nested
      ((session.eval depth source).2.store.acts ++ past) := by
  unfold eval
  split
  case h_1 program _ => exact nested_evalNode nested inside depth program
  case h_2 => exact nested.of_scopes_eq rfl

theorem nested_call {callee : Value} {arguments : List Value} (depth : Nat) (line : Int)
    (homesCallee : callee.HomesBelow session.store.scopes.size)
    (homes : ∀ argument ∈ arguments, argument.HomesBelow session.store.scopes.size) :
    (session.run (apply depth callee arguments line)).2.store.Nested
      ((session.run (apply depth callee arguments line)).2.store.acts ++ past) :=
  nested_run (chronicled_answers past depth session.root _ line .missing [] callee arguments
    (chronicled_start nested inside) trivial homesCallee homes)

end Session

namespace Store.Course

/-- A store is what its history made it, on every course. -/
theorem nested {start store : Store} {past acts : History} (begun : start.Nested past)
    (course : Course start acts store) : store.Nested (acts ++ past) := by
  induction course with
  | refl => exact begun
  | object _ ih => exact ih.of_scopes_eq rfl
  | root _ ih => exact ih.addScope (by simp) rfl
  | child _ inside ih => exact ih.addScope (by simpa using inside) rfl
  | set name _ inside homes ih => exact ih.bind inside name homes
  | tree depth node _ inside after ih =>
      rw [after, List.append_assoc]
      exact Session.nested_evalNode ih inside depth node
  | source depth source _ inside after ih =>
      rw [after, List.append_assoc]
      exact Session.nested_eval ih inside depth source
  | call depth line _ inside homesCallee homes after ih =>
      rw [after, List.append_assoc]
      exact Session.nested_call ih inside depth line homesCallee homes

/-- The links between scopes stay what they are. -/
theorem outer_eq {start store : Store} {past acts : History} (begun : start.Nested past)
    (course : Course start acts store) {i : Nat} (old : i < start.scopes.size) :
    store.scopes[i]?.map Scope.outer = start.scopes[i]?.map Scope.outer := by
  have before := begun.links
  have after := (course.nested begun).links
  have longer : (acts ++ past).links = past.links ++ acts.links := by
    simp [History.links]
  rw [longer, ← before] at after
  have there := congrArg (fun links => links[i]?) after
  simpa [List.getElem?_append_left, old] using there

end Store.Course

/-! ## Scopes are nested finite maps -/

open Store in
/-- Scope chains behave as nested finite maps. Along every course each scope is inside one that was made
before it, or inside none, and stays so; so the walk outwards from a scope ends. A name means what it was
last bound to in the nearest scope in which it was ever bound, and nothing if there is none. Binding a name
changes what is seen only of that name and only from where its scope is then the nearest that binds it, and
there the new value is seen. The names of a scope are in the order in which they were first bound. A call of
a function runs the body in a new scope, in which at first a name means the argument of the last parameter
of that name, and otherwise what it means in the scope in which the function was made. -/
theorem scopes_are_nested_maps :
    (∀ (acts : History) (store : Store), Course .empty acts store →
      (∀ (i : Nat) (scope : Scope), store.scopes[i]? = some scope → ∀ outer ∈ scope.outer, outer < i) ∧
      (∀ later after, Course store later after → ∀ i < store.scopes.size,
        after.scopes[i]?.map Scope.outer = store.scopes[i]?.map Scope.outer) ∧
      ∀ scope < store.scopes.size,
        (∀ walk, store.Outward scope walk ↔ walk = store.chain scope) ∧
        (∀ name value, store.lookup scope name = some value ↔ ∃ place,
          Nearest (store.chain scope) (acts.EverSet name) place ∧ acts.latest place name = some value) ∧
        (∀ name, store.lookup scope name = none ↔ ∀ place ∈ store.chain scope, ¬acts.EverSet name place) ∧
        (∀ name value start asked,
          let after := store.bind scope name value
          let seen := asked = name ∧
            Nearest (after.chain start) (fun i => name ∈ (after.bindings i).names) scope
          (seen → after.lookup start asked = some value) ∧
          (¬seen → after.lookup start asked = store.lookup start asked)) ∧
        (store.bindings scope).names = acts.names scope) ∧
    ∀ (store : Store) (rest id home : Nat) (parameters : List Name) (body : Node) (arguments : List Value)
      (line : Int), arguments.length = parameters.length →
      ∃ entered : Store,
        apply (rest + 1) (.function id parameters body home) arguments line store =
          (do
            let value ← body.eval (apply rest) store.scopes.size
            record (.closed store.scopes.size value.unwrapped)
            return value.unwrapped : Eval Value) entered ∧
        ∀ name, entered.lookup store.scopes.size name =
          (argumentOf parameters arguments name).or (store.lookup home name) := by
  refine ⟨fun acts store course => ?_, ?_⟩
  · have nested : store.Nested acts := by
      simpa using course.nested Nested.empty
    have ever (name : String) (i : Nat) : name ∈ (store.bindings i).names ↔ acts.EverSet name i := by
      rw [← Bindings.isSome_find?_iff, nested.values, History.isSome_latest_iff]
    refine ⟨nested.ordered, fun later after further i old => further.outer_eq nested old, ?_⟩
    intro scope inside
    refine ⟨fun walk => outward_iff nested.ordered inside, ?_, ?_, ?_, nested.names scope⟩
    · intro name value
      simp only [lookup_eq_some_iff, ever, nested.values]
    · intro name
      simp only [lookup_eq_none_iff, ever]
    · intro name value start asked after seen
      refine ⟨?_, fun hidden => lookup_bind_of_not_nearest inside hidden⟩
      rintro ⟨rfl, nearest⟩
      exact lookup_bind_of_nearest inside nearest
  · intro store rest id home parameters body arguments line matching
    exact ⟨store.entered home parameters arguments, apply_function_eq matching line store,
      lookup_entered home parameters arguments⟩

open Store in
/-- A name is bound in a root scope and in one inside it, and then again in the root scope. The inner scope
sees its own value, the outer one the later of its two, and a function of two parameters of one name that
was made in the inner scope sees its second argument. -/
theorem scopes_are_nested_maps_shadowed :
    let acts : History := [.set 0 "x" (.boolean false), .set 1 "x" .null, .child 0,
      .set 0 "x" (.boolean true), .root]
    let outside := (Store.empty.addScope none).bind 0 "x" (.boolean true)
    let store := ((outside.addScope (some 0)).bind 1 "x" .null).bind 0 "x" (.boolean false)
    Course .empty acts store ∧ store.chain 1 = [1, 0] ∧
      store.lookup 1 "x" = some .null ∧ store.lookup 0 "x" = some (.boolean false) ∧
      store.lookup 1 "y" = none ∧ (store.bindings 0).names = ["x"] ∧
      ∃ entered : Store,
        entered.lookup 2 "a" = some (.boolean false) ∧ entered.lookup 2 "x" = some .null := by
  intro acts outside store
  have begun : Course .empty [.set 0 "x" (.boolean true), .root] outside :=
    .set "x" (.root .refl) (by decide) (Value.Atomic.homesBelow trivial)
  have inside : Course .empty [.set 1 "x" .null, .child 0, .set 0 "x" (.boolean true), .root]
      ((outside.addScope (some 0)).bind 1 "x" .null) :=
    .set "x" (begun.child (by decide)) (by decide) (Value.Atomic.homesBelow trivial)
  have course : Course .empty acts store :=
    .set "x" inside (by decide) (Value.Atomic.homesBelow trivial)
  obtain ⟨-, -, scopes⟩ := scopes_are_nested_maps.1 acts store course
  obtain ⟨innerWalk, inner, missing, -, -⟩ := scopes 1 (by decide)
  obtain ⟨rootWalk, root, -, -, names⟩ := scopes 0 (by decide)
  have innerChain := (innerWalk [1, 0]).mp (.link rfl rfl (.root rfl rfl))
  have rootChain := (rootWalk [0]).mp (.root rfl rfl)
  have own : store.lookup 1 "x" = some .null :=
    (inner "x" .null).mpr ⟨1, ⟨[], [0], innerChain.symm, ⟨.null, by simp [acts]⟩, by simp⟩, rfl⟩
  obtain ⟨entered, -, seen⟩ := scopes_are_nested_maps.2 store 0 0 1 [⟨1, "a"⟩, ⟨1, "a"⟩] (.block 1 [])
    [.boolean true, .boolean false] 1 rfl
  refine ⟨course, innerChain.symm, own, ?_, ?_, names, entered, seen "a", (seen "x").trans own⟩
  · exact (root "x" _).mpr
      ⟨0, ⟨[], [], rootChain.symm, ⟨.boolean false, by simp [acts]⟩, by simp⟩, rfl⟩
  · refine (missing "y").mpr fun place _ => ?_
    rintro ⟨value, member⟩
    simp [acts] at member

end Treewalk

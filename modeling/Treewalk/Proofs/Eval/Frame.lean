import Treewalk.Proofs.Eval.Discipline
import Treewalk.Proofs.Store.Scopes

/-!
# Bindings stay in their scope

Running a tree binds names in the scope it is run in and in no other scope that was there before, and
only names that the tree assigns outside of its function literals. A call runs in a scope of its own, so
it leaves all scopes alone that were there before it. Nothing is assumed of the store, and a run that is
cut short is no exception.
-/

namespace Treewalk

open Eval

/-! ## Growing bindings -/

/-- Bindings after some of the names in `assigned` were bound: old names keep their order, new ones
stand behind them, and no other name has another value. -/
structure Bindings.Grows (assigned : String → Prop) (before after : Bindings) : Prop where
  names : ∃ added, after.names = before.names ++ added ∧ ∀ name ∈ added, assigned name
  values : ∀ name, ¬assigned name → after.find? name = before.find? name

namespace Bindings.Grows

variable {assigned : String → Prop}

theorem refl (bindings : Bindings) : Grows assigned bindings bindings :=
  ⟨⟨[], by simp, by simp⟩, fun _ _ => rfl⟩

theorem trans {first second third : Bindings} (one : Grows assigned first second)
    (two : Grows assigned second third) : Grows assigned first third := by
  obtain ⟨added, names, allowed⟩ := one.names
  obtain ⟨more, namesMore, allowedMore⟩ := two.names
  refine ⟨⟨added ++ more, ?_, ?_⟩, ?_⟩
  · rw [namesMore, names, List.append_assoc]
  · intro name member
    rcases List.mem_append.mp member with inside | inside
    · exact allowed name inside
    · exact allowedMore name inside
  · intro name other
    rw [two.values name other, one.values name other]

theorem set {name : String} (allowed : assigned name) (value : Value) (bindings : Bindings) :
    Grows assigned bindings (bindings.set name value) := by
  refine ⟨?_, ?_⟩
  · rw [names_set]
    split
    · exact ⟨[], by simp, by simp⟩
    · exact ⟨[name], rfl, by simpa using allowed⟩
  · intro other unassigned
    refine find?_set_of_ne ?_ value bindings
    rintro rfl
    exact unassigned allowed

end Bindings.Grows

/-! ## Frames -/

namespace Store

/-- Every scope that was there before is as it was. -/
structure Untouched (before after : Store) : Prop where
  size : before.scopes.size ≤ after.scopes.size
  scopes : ∀ i < before.scopes.size, after.scopes[i]? = before.scopes[i]?

/-- Every scope that was there before is as it was, but that names in `assigned` may have been bound in
one of them. -/
structure Frame (scope : Nat) (assigned : String → Prop) (before after : Store) : Prop where
  size : before.scopes.size ≤ after.scopes.size
  others : ∀ i < before.scopes.size, i ≠ scope → after.scopes[i]? = before.scopes[i]?
  own : ∀ old, before.scopes[scope]? = some old →
    ∃ new, after.scopes[scope]? = some new ∧ new.outer = old.outer ∧
      old.bindings.Grows assigned new.bindings

theorem Untouched.of_scopes_eq {before after : Store} (same : after.scopes = before.scopes) :
    Untouched before after :=
  ⟨Nat.le_of_eq (by rw [same]), fun _ _ => by rw [same]⟩

theorem Untouched.trans {first second third : Store} (one : Untouched first second)
    (two : Untouched second third) : Untouched first third := by
  refine ⟨Nat.le_trans one.size two.size, ?_⟩
  intro i old
  rw [two.scopes i (Nat.lt_of_lt_of_le old one.size), one.scopes i old]

namespace Frame

variable {scope : Nat} {assigned : String → Prop}

theorem of_scopes_eq {before after : Store} (same : after.scopes = before.scopes) :
    Frame scope assigned before after :=
  ⟨Nat.le_of_eq (by rw [same]), fun _ _ _ => by rw [same],
    fun old found => ⟨old, same ▸ found, rfl, .refl _⟩⟩

theorem trans {first second third : Store} (one : Frame scope assigned first second)
    (two : Frame scope assigned second third) : Frame scope assigned first third := by
  refine ⟨Nat.le_trans one.size two.size, ?_, ?_⟩
  · intro i old other
    rw [two.others i (Nat.lt_of_lt_of_le old one.size) other, one.others i old other]
  · intro old found
    obtain ⟨middle, foundMiddle, outerMiddle, grows⟩ := one.own old found
    obtain ⟨new, foundNew, outerNew, growsMore⟩ := two.own middle foundMiddle
    exact ⟨new, foundNew, outerNew.trans outerMiddle, grows.trans growsMore⟩

theorem of_untouched {before after : Store} (untouched : Untouched before after) :
    Frame scope assigned before after := by
  refine ⟨untouched.size, fun i old _ => untouched.scopes i old, ?_⟩
  intro old found
  have inside : scope < before.scopes.size := (Array.getElem?_eq_some_iff.mp found).1
  exact ⟨old, (untouched.scopes scope inside).trans found, rfl, .refl _⟩

/-- Binding an assigned name. -/
theorem bind {name : String} (allowed : assigned name) (value : Value) (store : Store) :
    Frame scope assigned store (store.bind scope name value) := by
  refine ⟨by simp, ?_, ?_⟩
  · intro i _ other
    rw [getElem?_bind, if_neg other]
  · intro old found
    refine ⟨{ old with bindings := old.bindings.set name value }, ?_, rfl, .set allowed value _⟩
    rw [getElem?_bind, if_pos rfl, found]
    rfl

/-- What happens in a new scope is not seen by the old ones. -/
theorem untouched_of_addScope {outer : Option Nat} {store middle after : Store}
    (frame : Frame store.scopes.size assigned middle after)
    (same : middle.scopes = (store.addScope outer).scopes) : Untouched store after := by
  have grown : middle.scopes.size = store.scopes.size + 1 := by simp [same]
  refine ⟨Nat.le_trans (by omega) frame.size, ?_⟩
  intro i old
  have new : i ≠ store.scopes.size := Nat.ne_of_lt old
  rw [frame.others i (by omega) new, same, getElem?_addScope, if_neg new]

end Frame

end Store

/-! ## Runs stay in their frame -/

namespace Discipline

/-- Scopes are moved along a relation, however a run ends. Values are not looked at. -/
def scopewise (moves : Store → Store → Prop) (assigned : String → Prop) : Discipline where
  inv _ := True
  moves := moves
  plain _ _ := True
  stops store _ after := moves store after
  cuts := moves
  fact _ := True
  assigns := assigned

section Scopewise

variable {scope : Nat} {moves : Store → Store → Prop} {assigned : String → Prop}

theorem scopewise_arrives {store after : Store} {value : Value} :
    (scopewise moves assigned).Arrives store value after ↔ moves store after := by
  simp [Arrives, scopewise]

/-- A relation that is about scopes only is followed if it is transitive and allows the bindings. -/
theorem scopewise_lawful
    (still : ∀ {before after : Store}, after.scopes = before.scopes → moves before after)
    (trans : ∀ {first second third}, moves first second → moves second third → moves first third)
    (bind : ∀ {name} (value store), assigned name → moves store (store.bind scope name value)) :
    (scopewise moves assigned).Lawful scope where
  refl _ := still rfl
  trans := trans
  stops_after := trans
  cuts_after := trans
  mono _ _ := trivial
  atom _ _ := trivial
  number _ _ := trivial
  fresh _ := ⟨trivial, still rfl⟩
  array _ _ := trivial
  hash _ _ := trivial
  function _ _ := trivial
  unary _ _ _ := trivial
  binary _ _ _ _ := trivial
  lookup _ _ := scopewise_arrives.mpr (still rfl)
  index _ _ _ := scopewise_arrives.mpr (still rfl)
  raise _ _ _ := still rfl
  giveBack _ _ := still rfl
  assign {store _ value} _ _ allowed := ⟨trivial, trans (bind value store allowed) (still rfl)⟩
  print _ _ := ⟨trivial, still rfl⟩
  builtin _ _ _ := scopewise_arrives.mpr (still rfl)
  cut _ := still rfl
  program _ stops := scopewise_arrives.mpr stops

end Scopewise

/-- Bindings stay in one scope and are of some names only. -/
abbrev framed (scope : Nat) (assigned : String → Prop) : Discipline :=
  scopewise (Store.Frame scope assigned) assigned

/-- No scope that was there before is changed. -/
abbrev sealed : Discipline :=
  scopewise Store.Untouched fun _ => False

theorem framed_lawful (scope : Nat) (assigned : String → Prop) :
    (framed scope assigned).Lawful scope :=
  scopewise_lawful .of_scopes_eq .trans fun value store allowed => .bind allowed value store

theorem sealed_lawful (scope : Nat) : sealed.Lawful scope :=
  scopewise_lawful .of_scopes_eq .trans fun _ _ none => none.elim

/-- Calls that leave all old scopes alone keep to the frame of any scope. -/
theorem framed_answers {call : Call} (answers : sealed.Answers call) (scope : Nat)
    (assigned : String → Prop) : (framed scope assigned).Answers call := by
  intro store line function nodes callee arguments inv facts plainCallee plain
  have run : sealed.Follows store (call callee arguments line) :=
    answers store line function nodes callee arguments inv facts plainCallee plain
  refine run.imp ?_ fun _ untouched => .of_untouched untouched
  intro value after arrives
  exact scopewise_arrives.mpr (.of_untouched (scopewise_arrives.mp arrives))

/-- A call changes no scope that was there before; the induction is on how many calls may be nested. -/
theorem sealed_answers (depth : Nat) : sealed.Answers (apply depth) := by
  induction depth with
  | zero =>
      intro store line function nodes callee arguments inv facts plainCallee plain
      exact apply_follows (sealed_lawful 0) inv facts plainCallee plain (by simp)
  | succ depth ih =>
      intro store line function nodes callee arguments inv facts plainCallee plain
      refine apply_follows (sealed_lawful 0) inv facts plainCallee plain ?_
      intro id parameters body home rest _ sameDepth matching
      cases sameDepth
      have every : body.Every fun _ => True := Node.every_of_forall (fun _ => trivial) body
      refine ends_apply_of_body (framed_lawful store.scopes.size fun _ => True) (framed_answers ih _ _)
        every (fun _ => trivial) matching rfl trivial (fun _ _ => trivial) ?_ ?_
      · intro value left arrives
        have untouched : store.Untouched left := (scopewise_arrives.mp arrives).untouched_of_addScope rfl
        exact scopewise_arrives.mpr (untouched.trans (.of_scopes_eq rfl))
      · intro left frame
        exact Store.Frame.untouched_of_addScope frame rfl

end Discipline

/-! ## The frame of a tree and of a call -/

open Discipline

/-- Assignment never reaches outside the current scope. Whatever a tree does and however its run ends,
the scopes that were there before are as they were, but that the scope it was run in may have more
names, and other values for names that the tree assigns. A call leaves all scopes as they were. -/
theorem assignment_stays_in_scope (depth : Nat) :
    (∀ (node : Node) (scope : Nat) (store : Store),
      (node.eval (apply depth) scope).Ends store
        (fun _ after => store.Frame scope node.Assigns after)
        (store.Frame scope node.Assigns)) ∧
    (∀ (callee : Value) (arguments : List Value) (line : Int) (store : Store),
      (apply depth callee arguments line).Ends store
        (fun _ after => store.Untouched after) store.Untouched) := by
  constructor
  · intro node scope store
    have lawful := framed_lawful scope node.Assigns
    have answers := framed_answers (sealed_answers depth) scope node.Assigns
    have every : node.Every fun _ => True := Node.every_of_forall (fun _ => trivial) node
    have run := eval_follows lawful answers node every (fun _ assigns => assigns) store trivial
    exact run.imp (fun _ _ arrives => scopewise_arrives.mp arrives) fun _ frame => frame
  · intro callee arguments line store
    have run : sealed.Follows store (apply depth callee arguments line) :=
      sealed_answers depth store line .missing [] callee arguments trivial trivial trivial
        fun _ _ => trivial
    exact run.imp (fun _ _ arrives => scopewise_arrives.mp arrives) fun _ untouched => untouched

end Treewalk

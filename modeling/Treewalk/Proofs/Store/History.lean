import Treewalk.Proofs.Store.Chains
import Treewalk.Proofs.Value.Objects

/-!
# The history of scopes

Scopes are made and names are bound in them; nothing else is ever done to scopes. A history is the row of
these acts, the latest first. `Store.Nested history store` says that a store is what a history has made of
no scopes at all: which scopes there are and what each is inside of, what each name means in each scope,
and in which order the names of a scope were first bound. One lemma for each act says how the history goes
on.

A function may be called wherever it has got to, and then a scope is made inside the one it was made in.
So the values that scopes hold are followed too: the functions in them were made in scopes of the store
(`Value.HomesBelow`).
-/

namespace Treewalk

/-- What can be done to the scopes of a store. -/
inductive Act where
  /-- A scope was made that is inside no other. -/
  | root
  /-- A scope was made inside another. -/
  | child (outer : Nat)
  /-- A name was bound in a scope. -/
  | set (scope : Nat) (name : String) (value : Value)

namespace Act

/-- What the scope is inside of that was made, if one was. -/
def link? : Act → Option (Option Nat)
  | .root => some none
  | .child outer => some (some outer)
  | .set .. => none

/-- The name that was bound in a scope. -/
def name? (scope : Nat) : Act → Option String
  | .set place name _ => if place = scope then some name else none
  | _ => none

/-- The value that a name was bound to in a scope. -/
def value? (scope : Nat) (name : String) : Act → Option Value
  | .set place bound value => if place = scope ∧ bound = name then some value else none
  | _ => none

end Act

/-- What was done to scopes, the latest act first. -/
abbrev History := List Act

namespace History

/-- What each scope is inside of, in the order in which the scopes were made. -/
def links (history : History) : List (Option Nat) :=
  (history.filterMap Act.link?).reverse

/-- A name was bound in a scope at some time. -/
def EverSet (history : History) (name : String) (scope : Nat) : Prop :=
  ∃ value, Act.set scope name value ∈ history

/-- The value that a name was last bound to in a scope. -/
def latest (history : History) (scope : Nat) (name : String) : Option Value :=
  history.findSome? (Act.value? scope name)

/-- The names that were bound in a scope, in the order in which they were first bound. -/
def names (history : History) (scope : Nat) : List String :=
  (history.filterMap (Act.name? scope)).dedup.reverse

theorem isSome_latest_iff {history : History} {scope : Nat} {name : String} :
    (history.latest scope name).isSome ↔ history.EverSet name scope := by
  simp only [latest, List.findSome?_isSome_iff, EverSet]
  constructor
  · rintro ⟨act, member, here⟩
    cases act with
    | set place bound value =>
        simp only [Act.value?, Option.isSome_ite] at here
        obtain ⟨rfl, rfl⟩ := here
        exact ⟨value, member⟩
    | root | child => cases here
  · rintro ⟨value, member⟩
    exact ⟨_, member, by simp [Act.value?]⟩

end History

/-! ## Functions and the scopes they were made in -/

namespace Value

/-- The scope that a function was made in. -/
def home? : Value → Option Nat
  | .function _ _ _ home => some home
  | _ => none

/-- Every function in the value was made in one of so many scopes. -/
def HomesBelow (size : Nat) : Value → Prop :=
  Throughout fun part => ∀ home, part.home? = some home → home < size

variable {size larger : Nat} {value : Value}

theorem HomesBelow.mono (homes : value.HomesBelow size) (le : size ≤ larger) : value.HomesBelow larger :=
  fun part within home isHome => (homes part within home isHome).trans_le le

/-- The homes of a value that is no function are those of the values inside it. -/
theorem homesBelow_of_inside (other : value.home? = none)
    (inside : ∀ inner ∈ value.inside, inner.HomesBelow size) : value.HomesBelow size :=
  throughout_of_inside (by simp [other]) inside

theorem Atomic.home?_eq_none (atomic : value.Atomic) : value.home? = none := by
  cases value <;> first | exact False.elim atomic | rfl

theorem Atomic.homesBelow (atomic : value.Atomic) : value.HomesBelow size :=
  atomic.throughout (by simp [atomic.home?_eq_none])

theorem homesBelow_hash {entries : Entries} (id : Nat)
    (homes : ∀ entry ∈ entries, entry.2.HomesBelow size) :
    (Value.hash id entries).HomesBelow size := by
  refine homesBelow_of_inside rfl fun inner member => ?_
  obtain ⟨entry, among, rfl⟩ := List.mem_map.mp member
  exact homes entry among

theorem homesBelow_function {home : Nat} (id : Nat) (parameters : List Name) (body : Node)
    (inside : home < size) : (Value.function id parameters body home).HomesBelow size := by
  refine throughout_of_inside ?_ fun inner member => by cases member
  rintro _ ⟨⟩
  exact inside

theorem HomesBelow.result (homes : value.HomesBelow size) (id : Nat) :
    (Value.result id value).HomesBelow size := by
  refine homesBelow_of_inside rfl fun inner member => ?_
  rwa [List.mem_singleton.mp member]

theorem HomesBelow.home_lt {id home : Nat} {parameters : List Name} {body : Node}
    (homes : (Value.function id parameters body home).HomesBelow size) : home < size :=
  homes.here home rfl

/-- Built-in functions make no functions. -/
theorem homesBelow_of_makes {id : Nat} {arguments : List Value} (makes : Builtin.Makes id arguments value)
    (homes : ∀ argument ∈ arguments, argument.HomesBelow size) : value.HomesBelow size := by
  refine throughout_of_makes makes homes ?_ ?_
  · intro atom atomic
    simp [atomic.home?_eq_none]
  · rintro items rfl
    simp [home?]

end Value

/-! ## Stores and their histories -/

namespace Store

/-- A store is what a history has made of no scopes at all, and the functions that its scopes hold were
made in scopes of it. -/
structure Nested (history : History) (store : Store) : Prop where
  ordered : store.Ordered
  homes : ∀ scope, ∀ binding ∈ store.bindings scope, binding.2.HomesBelow store.scopes.size
  links : store.scopes.toList.map Scope.outer = history.links
  values : ∀ scope name, (store.bindings scope).find? name = history.latest scope name
  names : ∀ scope, (store.bindings scope).names = history.names scope

namespace Nested

variable {history : History} {store other : Store}

theorem of_scopes_eq (nested : store.Nested history) (same : other.scopes = store.scopes) :
    other.Nested history := by
  have bindings (i : Nat) : other.bindings i = store.bindings i := by rw [bindings, same, bindings]
  refine ⟨?_, ?_, ?_, ?_, ?_⟩
  · unfold Ordered
    rw [same]
    exact nested.ordered
  · intro scope
    rw [bindings, same]
    exact nested.homes scope
  · rw [same]
    exact nested.links
  · intro scope
    rw [bindings]
    exact nested.values scope
  · intro scope
    rw [bindings]
    exact nested.names scope

theorem empty : Store.empty.Nested [] := by
  refine ⟨?_, ?_, rfl, ?_, ?_⟩
  · intro i scope found
    simp [Store.empty] at found
  · intro scope binding member
    simp [Store.bindings, Store.empty] at member
  · intro scope name
    simp [Store.bindings, Store.empty, Bindings.find?, History.latest]
  · intro scope
    simp [Store.bindings, Store.empty, Bindings.names, History.names]

/-- A scope is made inside another, or inside none. -/
theorem addScope (nested : store.Nested history) {outer : Option Nat} {act : Act}
    (inside : ∀ home ∈ outer, home < store.scopes.size) (made : act.link? = some outer) :
    (store.addScope outer).Nested (act :: history) := by
  have value? (scope : Nat) (name : String) : act.value? scope name = none := by
    cases act <;> first | rfl | cases made
  have name? (scope : Nat) : act.name? scope = none := by
    cases act <;> first | rfl | cases made
  refine ⟨?_, ?_, ?_, ?_, ?_⟩
  · intro i scope found home member
    rw [getElem?_addScope] at found
    split at found
    case isTrue last =>
      cases found
      rw [last]
      exact inside home member
    case isFalse => exact nested.ordered i scope found home member
  · intro scope binding member
    rw [bindings_addScope] at member
    exact (nested.homes scope binding member).mono (by simp)
  · simp [Store.addScope, History.links, made, nested.links]
  · intro scope name
    rw [bindings_addScope, nested.values]
    simp [History.latest, value?]
  · intro scope
    rw [bindings_addScope, nested.names]
    simp [History.names, name?]

/-- A name is bound in a scope that is there. -/
theorem bind (nested : store.Nested history) {scope : Nat} (inside : scope < store.scopes.size)
    (name : String) {value : Value} (homes : value.HomesBelow store.scopes.size) :
    (store.bind scope name value).Nested (.set scope name value :: history) := by
  refine ⟨?_, ?_, ?_, ?_, ?_⟩
  · intro i found here home member
    have link : (store.bind scope name value).scopes[i]?.map Scope.outer =
        store.scopes[i]?.map Scope.outer := outer_bind scope name value i
    rw [here] at link
    obtain ⟨old, hereBefore, same⟩ := Option.map_eq_some_iff.mp link.symm
    exact nested.ordered i old hereBefore home (same ▸ member)
  · intro i binding member
    rw [size_bind]
    rcases mem_bindings_bind member with same | before
    · rw [same]
      exact homes
    · exact nested.homes i binding before
  · have same : (store.bind scope name value).scopes.toList.map Scope.outer =
        store.scopes.toList.map Scope.outer := by
      refine List.ext_getElem? fun i => ?_
      rw [List.getElem?_map, List.getElem?_map, Array.getElem?_toList, Array.getElem?_toList, outer_bind]
    rw [same, nested.links]
    rfl
  · intro i asked
    by_cases here : i = scope
    · subst here
      rw [bindings_bind_self inside]
      by_cases same : asked = name
      · subst same
        rw [Bindings.find?_set_self]
        simp [History.latest, Act.value?]
      · rw [Bindings.find?_set_of_ne same, nested.values]
        simp [History.latest, Act.value?, Ne.symm same]
    · rw [bindings_bind_of_ne here, nested.values]
      simp [History.latest, Act.value?, Ne.symm here]
  · intro i
    by_cases here : i = scope
    · subst here
      rw [bindings_bind_self inside, Bindings.names_set, nested.names]
      simp only [History.names, List.mem_reverse, List.mem_dedup, List.filterMap_cons, Act.name?, if_true]
      split
      case isTrue known => rw [List.dedup_cons_of_mem known]
      case isFalse new => rw [List.dedup_cons_of_notMem new, List.reverse_cons]
    · rw [bindings_bind_of_ne here, nested.names]
      simp [History.names, Act.name?, Ne.symm here]

end Nested

end Store

end Treewalk

import Mathlib
import Treewalk.Store.Basic

/-!
# Reading stores back

What binding a name and making a scope do to the scopes of a store, read off scope by scope. A name
that is bound goes to the end of the names of its scope if it is new there and keeps its place
otherwise. What was printed is read off the log.
-/

namespace Treewalk

namespace Bindings

theorem mem_set {name : String} {value : Value} {bindings : Bindings} {binding : String × Value}
    (member : binding ∈ bindings.set name value) : binding.2 = value ∨ binding ∈ bindings := by
  induction bindings with
  | nil =>
      rw [List.mem_singleton.mp member]
      exact .inl rfl
  | cons first more ih =>
      simp only [set] at member
      split at member
      · rcases List.mem_cons.mp member with rfl | inside
        · exact .inl rfl
        · exact .inr (List.mem_cons_of_mem _ inside)
      · rcases List.mem_cons.mp member with rfl | inside
        · exact .inr List.mem_cons_self
        · exact (ih inside).imp_right (List.mem_cons_of_mem _)

theorem names_set (name : String) (value : Value) (bindings : Bindings) :
    (bindings.set name value).names =
      if name ∈ bindings.names then bindings.names else bindings.names ++ [name] := by
  induction bindings with
  | nil => rfl
  | cons first more ih =>
      simp only [set]
      split
      case isTrue same => simp [names, same]
      case isFalse different =>
        have other : name ≠ first.1 := fun same => different same.symm
        simp only [names, List.map_cons, List.mem_cons, other, false_or] at ih ⊢
        rw [ih]
        split <;> simp_all

theorem find?_set_of_ne {name other : String} (ne : other ≠ name) (value : Value)
    (bindings : Bindings) : (bindings.set name value).find? other = bindings.find? other := by
  induction bindings with
  | nil =>
      have bne : (other == name) = false := by simpa using ne
      simp [set, find?, List.lookup, bne]
  | cons first more ih =>
      simp only [find?] at ih
      simp only [set]
      split
      case isTrue same =>
        have bne : (other == first.1) = false := by simpa [same] using ne
        simp [find?, List.lookup, bne]
      case isFalse different => simp only [find?, List.lookup, ih]

theorem mem_of_find? {name : String} {value : Value} {bindings : Bindings}
    (found : bindings.find? name = some value) : (name, value) ∈ bindings := by
  induction bindings with
  | nil => cases found
  | cons first more ih =>
      simp only [find?, List.lookup] at found ih
      split at found
      case h_1 same =>
        have name_eq : name = first.1 := by simpa using same
        cases found
        rw [name_eq]
        exact List.mem_cons_self
      case h_2 => exact List.mem_cons_of_mem _ (ih found)

end Bindings

/-- A scope with other values for its names. -/
def Scope.mapValues (f : Value → Value) (scope : Scope) : Scope :=
  { scope with bindings := scope.bindings.map fun binding => (binding.1, f binding.2) }

theorem Scope.mapValues_id : Scope.mapValues id = id := by
  funext scope
  simp [mapValues]

/-- A scope with other values for its names, inside the scope at another place. -/
def Scope.moved (place : Nat → Nat) (f : Value → Value) (scope : Scope) : Scope where
  outer := scope.outer.map place
  bindings := scope.bindings.map fun binding => (binding.1, f binding.2)

theorem Scope.moved_id (f : Value → Value) : Scope.moved id f = Scope.mapValues f := by
  funext scope
  simp [moved, mapValues]

theorem Bindings.find?_map (f : Value → Value) (bindings : Bindings) (name : String) :
    Bindings.find? (bindings.map fun binding => (binding.1, f binding.2)) name =
      (bindings.find? name).map f := by
  induction bindings with
  | nil => rfl
  | cons first more ih =>
      simp only [find?] at ih
      simp only [find?, List.map_cons, List.lookup, ih]
      split <;> rfl

theorem Bindings.set_map (f : Value → Value) (name : String) (value : Value) (bindings : Bindings) :
    (bindings.set name value).map (fun binding => (binding.1, f binding.2)) =
      Bindings.set name (f value) (bindings.map fun binding => (binding.1, f binding.2)) := by
  induction bindings with
  | nil => rfl
  | cons first more ih =>
      simp only [set, List.map_cons]
      split
      · rfl
      · rw [List.map_cons, ih]

namespace Store

theorem getElem?_bind (store : Store) (scope : Nat) (name : String) (value : Value) (i : Nat) :
    (store.bind scope name value).scopes[i]? =
      if i = scope then
        store.scopes[i]?.map fun s => { s with bindings := s.bindings.set name value }
      else store.scopes[i]? := by
  simp only [bind, Array.getElem?_modify, eq_comm]

theorem getElem?_addScope (store : Store) (outer : Option Nat) (i : Nat) :
    (store.addScope outer).scopes[i]? =
      if i = store.scopes.size then some ⟨outer, []⟩ else store.scopes[i]? := by
  simp only [addScope, Array.getElem?_push]

@[simp]
theorem size_bind (store : Store) (scope : Nat) (name : String) (value : Value) :
    (store.bind scope name value).scopes.size = store.scopes.size := by
  simp [bind]

@[simp]
theorem size_addScope (store : Store) (outer : Option Nat) :
    (store.addScope outer).scopes.size = store.scopes.size + 1 := by
  simp [addScope]

/-- A binding that a store has after a name was bound was there before or holds the new value. -/
theorem mem_bindings_bind {store : Store} {scope : Nat} {name : String} {value : Value} {i : Nat}
    {binding : String × Value} (member : binding ∈ (store.bind scope name value).bindings i) :
    binding.2 = value ∨ binding ∈ store.bindings i := by
  simp only [bindings, getElem?_bind] at member ⊢
  split at member
  · cases found : store.scopes[i]? with
    | none => simp [found] at member
    | some s =>
        simp only [found, Option.map_some, Option.getD_some] at member ⊢
        exact Bindings.mem_set member
  · exact .inr member

/-- A new scope binds nothing. -/
theorem bindings_addScope (store : Store) (outer : Option Nat) (i : Nat) :
    (store.addScope outer).bindings i = store.bindings i := by
  simp only [bindings, getElem?_addScope]
  split
  case isTrue last =>
    have absent : store.scopes[i]? = none := by simp [last]
    simp [absent]
  case isFalse => rfl

/-- What a name is found to mean is bound in some scope. -/
theorem mem_of_lookup {store : Store} {scope : Nat} {name : String} {value : Value}
    (found : store.lookup scope name = some value) : ∃ i, (name, value) ∈ store.bindings i := by
  obtain ⟨i, _, here⟩ := List.exists_of_findSome?_eq_some found
  exact ⟨i, Bindings.mem_of_find? here⟩

/-- What a run printed, from what it printed before and after some point. -/
theorem output_of_log {store first second : Store} (log : store.log = second.log ++ first.log) :
    store.output = first.output ++ second.output := by
  simp [output, log]

section Moved

variable {place : Nat → Nat} {f : Value → Value} {store other : Store}
  (moved : ∀ i, other.scopes[place i]? = store.scopes[i]?.map (Scope.moved place f))

include moved

theorem bindings_of_moved (i : Nat) :
    other.bindings (place i) = (store.bindings i).map fun binding => (binding.1, f binding.2) := by
  rw [bindings, bindings, moved]
  cases store.scopes[i]? <;> rfl

/-- Scopes in the same order are around each other as they were. -/
theorem chain_of_moved (ordered : StrictMono place) (scope : Nat) :
    other.chain (place scope) = (store.chain scope).map place := by
  induction scope using Nat.strongRecOn with
  | ind scope ih =>
      rw [chain.eq_def, chain.eq_def store, moved]
      cases store.scopes[scope]? with
      | none => rfl
      | some found =>
          simp only [Option.map_some, Scope.moved]
          cases found.outer with
          | none => rfl
          | some outer =>
              by_cases lower : outer < scope
              · simp only [Option.map_some, ordered.lt_iff_lt, lower, if_true, ih outer lower,
                  List.map_cons]
              · simp only [Option.map_some, ordered.lt_iff_lt, lower, if_false, List.map_cons,
                  List.map_nil]

/-- Names are found in the same scopes at their other places, with the other values. -/
theorem lookup_of_moved (ordered : StrictMono place) (scope : Nat) (name : String) :
    other.lookup (place scope) name = (store.lookup scope name).map f := by
  rw [lookup, lookup, chain_of_moved moved ordered]
  induction store.chain scope with
  | nil => rfl
  | cons i more ih =>
      rw [List.map_cons, List.findSome?_cons, List.findSome?_cons, ih, bindings_of_moved moved,
        Bindings.find?_map]
      cases (store.bindings i).find? name <;> rfl

end Moved

section MapValues

variable {f : Value → Value} {store other : Store}
  (mapped : other.scopes = store.scopes.map (Scope.mapValues f))

include mapped

theorem moved_of_map (i : Nat) :
    other.scopes[id i]? = store.scopes[i]?.map (Scope.moved id f) := by
  rw [mapped, Array.getElem?_map, Scope.moved_id]
  rfl

theorem bindings_of_map (i : Nat) :
    other.bindings i = (store.bindings i).map fun binding => (binding.1, f binding.2) :=
  bindings_of_moved (moved_of_map mapped) i

/-- Names are found in the same scopes, with the other values. -/
theorem lookup_of_map (scope : Nat) (name : String) :
    other.lookup scope name = (store.lookup scope name).map f :=
  lookup_of_moved (moved_of_map mapped) strictMono_id scope name

/-- Names are bound to the other values. -/
theorem scopes_bind_of_map (scope : Nat) (name : String) (value : Value) :
    (other.bind scope name (f value)).scopes =
      (store.bind scope name value).scopes.map (Scope.mapValues f) := by
  refine Array.ext_getElem? fun i => ?_
  rw [Array.getElem?_map, getElem?_bind, getElem?_bind, mapped, Array.getElem?_map]
  split
  · cases store.scopes[i]? with
    | none => rfl
    | some found => simp [Scope.mapValues, Bindings.set_map]
  · rfl

end MapValues

end Store

end Treewalk

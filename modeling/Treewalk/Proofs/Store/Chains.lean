import Treewalk.Eval.Node
import Treewalk.Proofs.Store.Scopes

/-!
# Chains of scopes

A name is looked for along the links between scopes. `Store.Outward` is the walk along the links as they
stand; it need not end. If every scope is inside one that was made before it (`Store.Ordered`), the walk
from each scope ends, and it is the chain that `Store.lookup` goes along (`Store.outward_iff`).

A name means what the nearest scope says that binds it. Binding a name is therefore seen from those scopes
only from which the scope it is bound in is the nearest (`Store.lookup_bind_of_nearest`,
`Store.lookup_bind_of_not_nearest`). On entry to a function the arguments are seen first, the last one of a
name that several parameters have, and behind them what the scope sees in which the function was made
(`Store.lookup_entered`).
-/

namespace Treewalk

/-! ## Bindings -/

namespace Bindings

theorem find?_set_self (name : String) (value : Value) (bindings : Bindings) :
    (bindings.set name value).find? name = some value := by
  induction bindings with
  | nil => simp [set, find?]
  | cons first more ih =>
      simp only [find?] at ih
      simp only [set]
      split
      case isTrue same => simp [find?, List.lookup, same]
      case isFalse different =>
        have other : (name == first.1) = false := by simpa using Ne.symm different
        simp only [find?, List.lookup, other, ih]

theorem find?_eq_none_iff {bindings : Bindings} {name : String} :
    bindings.find? name = none ↔ name ∉ bindings.names := by
  simp only [find?, List.lookup_eq_none_iff, names, List.mem_map, not_exists, not_and, bne_iff_ne]
  exact forall₂_congr fun binding _ => ne_comm

theorem isSome_find?_iff {bindings : Bindings} {name : String} :
    (bindings.find? name).isSome ↔ name ∈ bindings.names := by
  rw [← not_iff_not, Bool.not_eq_true, Option.isSome_eq_false_iff, Option.isNone_iff_eq_none,
    find?_eq_none_iff]

end Bindings

/-! ## Walks -/

/-- The place of a walk that is met first of those of which something holds. -/
def Nearest (walk : List Nat) (holds : Nat → Prop) (place : Nat) : Prop :=
  ∃ inner outer, walk = inner ++ place :: outer ∧ holds place ∧ ∀ i ∈ inner, ¬holds i

theorem Nearest.cons {walk : List Nat} {holds : Nat → Prop} {place first : Nat}
    (nearest : Nearest walk holds place) (passed : ¬holds first) :
    Nearest (first :: walk) holds place := by
  obtain ⟨inner, outer, rfl, here, before⟩ := nearest
  refine ⟨first :: inner, outer, rfl, here, ?_⟩
  intro i member
  rcases List.mem_cons.mp member with rfl | inside
  · exact passed
  · exact before i inside

/-- What is found first along a walk is found at the nearest place that has something. -/
theorem findSome?_eq_some_iff_nearest {walk : List Nat} {found : Nat → Option Value} {value : Value} :
    walk.findSome? found = some value ↔
      ∃ place, Nearest walk (fun i => (found i).isSome) place ∧ found place = some value := by
  rw [List.findSome?_eq_some_iff]
  constructor
  · rintro ⟨inner, place, outer, whole, here, before⟩
    exact ⟨place, ⟨inner, outer, whole, by simp [here], by simpa using before⟩, here⟩
  · rintro ⟨place, ⟨inner, outer, whole, -, before⟩, here⟩
    exact ⟨inner, place, outer, whole, here, by simpa using before⟩

theorem findSome?_congr {walk : List Nat} {found other : Nat → Option Value}
    (same : ∀ i ∈ walk, other i = found i) : walk.findSome? other = walk.findSome? found := by
  induction walk with
  | nil => rfl
  | cons first more ih =>
      rw [List.findSome?_cons, List.findSome?_cons, same first List.mem_cons_self,
        ih fun i member => same i (List.mem_cons_of_mem _ member)]

/-- A change at one place is not seen along a walk on which that place is not the nearest. -/
theorem findSome?_eq_of_not_nearest {walk : List Nat} {found other : Nat → Option Value} {place : Nat}
    (changed : (other place).isSome) (same : ∀ i ≠ place, other i = found i)
    (hidden : ¬Nearest walk (fun i => (other i).isSome) place) :
    walk.findSome? other = walk.findSome? found := by
  induction walk with
  | nil => rfl
  | cons first more ih =>
      have elsewhere : first ≠ place := by
        rintro rfl
        exact hidden ⟨[], more, rfl, changed, by simp⟩
      rw [List.findSome?_cons, List.findSome?_cons, same first elsewhere]
      cases here : found first with
      | some value => rfl
      | none =>
          refine ih fun nearest => hidden (nearest.cons ?_)
          simp [same first elsewhere, here]

namespace Store

variable {store other : Store} {scope : Nat}

/-- The walk from a scope outwards, along the links as they stand. -/
inductive Outward (store : Store) : Nat → List Nat → Prop
  | root {scope : Nat} {found : Scope} :
      store.scopes[scope]? = some found → found.outer = none → Outward store scope [scope]
  | link {scope outer : Nat} {found : Scope} {walk : List Nat} :
      store.scopes[scope]? = some found → found.outer = some outer → Outward store outer walk →
      Outward store scope (scope :: walk)

/-- Every scope is inside one that was made before it. -/
def Ordered (store : Store) : Prop :=
  ∀ (i : Nat) (scope : Scope), store.scopes[i]? = some scope → ∀ outer ∈ scope.outer, outer < i

/-- A scope has one link, so there is one walk from it. -/
theorem Outward.unique {walk again : List Nat} (one : store.Outward scope walk)
    (two : store.Outward scope again) : walk = again := by
  induction one generalizing again with
  | root found last =>
      cases two with
      | root => rfl
      | link foundAgain more =>
          rw [found] at foundAgain
          cases foundAgain
          rw [last] at more
          cases more
  | link found more _ ih =>
      cases two with
      | root foundAgain last =>
          rw [found] at foundAgain
          cases foundAgain
          rw [last] at more
          cases more
      | link foundAgain moreAgain rest =>
          rw [found] at foundAgain
          cases foundAgain
          rw [more] at moreAgain
          cases moreAgain
          rw [ih rest]

theorem outward_chain (ordered : store.Ordered) (inside : scope < store.scopes.size) :
    store.Outward scope (store.chain scope) := by
  induction scope using Nat.strongRecOn with
  | ind scope ih =>
      have found : store.scopes[scope]? = some store.scopes[scope] := Array.getElem?_eq_getElem inside
      rw [chain.eq_def, found]
      cases link : store.scopes[scope].outer with
      | none =>
          simp only [link]
          exact .root found link
      | some outer =>
          have lower : outer < scope := ordered scope _ found outer link
          simp only [link, if_pos lower]
          exact .link found link (ih outer lower (lower.trans inside))

/-- From each scope there is one walk outwards, and it is the chain of the scope. -/
theorem outward_iff (ordered : store.Ordered) (inside : scope < store.scopes.size) {walk : List Nat} :
    store.Outward scope walk ↔ walk = store.chain scope := by
  refine ⟨fun walks => walks.unique (outward_chain ordered inside), ?_⟩
  rintro rfl
  exact outward_chain ordered inside

/-- Only scopes that are there are on a chain. -/
theorem lt_size_of_mem_chain {i : Nat} (member : i ∈ store.chain scope) : i < store.scopes.size := by
  induction scope using Nat.strongRecOn with
  | ind scope ih =>
      rw [chain.eq_def] at member
      cases found : store.scopes[scope]? with
      | none => simp [found] at member
      | some here =>
          have inside : scope < store.scopes.size := (Array.getElem?_eq_some_iff.mp found).1
          simp only [found] at member
          split at member
          · rwa [List.mem_singleton.mp member]
          · split at member
            · rcases List.mem_cons.mp member with rfl | further
              · exact inside
              · exact ih _ ‹_› further
            · rwa [List.mem_singleton.mp member]

/-- The chain of a scope that is there starts with it. -/
theorem exists_chain_eq (inside : scope < store.scopes.size) :
    ∃ outer, store.chain scope = scope :: outer := by
  rw [chain.eq_def, Array.getElem?_eq_getElem inside]
  dsimp only
  split
  · exact ⟨[], rfl⟩
  · split
    · exact ⟨_, rfl⟩
    · exact ⟨[], rfl⟩

/-- A chain depends on the links of the scope and of those made before it. -/
theorem chain_congr (links : ∀ i ≤ scope,
      other.scopes[i]?.map Scope.outer = store.scopes[i]?.map Scope.outer) :
    other.chain scope = store.chain scope := by
  induction scope using Nat.strongRecOn with
  | ind scope ih =>
      have here := links scope le_rfl
      rw [chain.eq_def, chain.eq_def store]
      cases found : store.scopes[scope]? with
      | none =>
          rw [found, Option.map_none, Option.map_eq_none_iff] at here
          rw [here]
      | some old =>
          rw [found] at here
          obtain ⟨new, foundNew, same⟩ := Option.map_eq_some_iff.mp here
          simp only [foundNew, same]
          cases old.outer with
          | none => rfl
          | some outer =>
              dsimp only
              split
              case isTrue lower =>
                rw [ih outer lower fun i below => links i (below.trans lower.le)]
              case isFalse => rfl

/-! ## Binding a name -/

section Bind

variable {name : String} {value : Value}

theorem bindings_bind_of_ne {i : Nat} (other : i ≠ scope) (name : String) (value : Value) :
    (store.bind scope name value).bindings i = store.bindings i := by
  simp only [bindings, getElem?_bind, if_neg other]

theorem bindings_bind_self (inside : scope < store.scopes.size) (name : String) (value : Value) :
    (store.bind scope name value).bindings scope = (store.bindings scope).set name value := by
  simp [bindings, getElem?_bind, Array.getElem?_eq_getElem inside]

theorem outer_bind (scope : Nat) (name : String) (value : Value) (i : Nat) :
    (store.bind scope name value).scopes[i]?.map Scope.outer = store.scopes[i]?.map Scope.outer := by
  rw [getElem?_bind]
  split
  · cases store.scopes[i]? <;> rfl
  · rfl

theorem chain_bind (scope : Nat) (name : String) (value : Value) (start : Nat) :
    (store.bind scope name value).chain start = store.chain start :=
  chain_congr fun i _ => outer_bind scope name value i

/-- What a name is found to mean is what the nearest scope says that binds it. -/
theorem lookup_eq_some_iff :
    store.lookup scope name = some value ↔
      ∃ place, Nearest (store.chain scope) (fun i => name ∈ (store.bindings i).names) place ∧
        (store.bindings place).find? name = some value := by
  simp only [← Bindings.isSome_find?_iff]
  exact findSome?_eq_some_iff_nearest

theorem lookup_eq_none_iff :
    store.lookup scope name = none ↔
      ∀ place ∈ store.chain scope, name ∉ (store.bindings place).names := by
  simp only [lookup, List.findSome?_eq_none_iff, Bindings.find?_eq_none_iff]

/-- A name is seen to be bound where the scope it is bound in is the nearest. -/
theorem lookup_bind_of_nearest (inside : scope < store.scopes.size) {start : Nat}
    (nearest : Nearest ((store.bind scope name value).chain start)
      (fun i => name ∈ ((store.bind scope name value).bindings i).names) scope) :
    (store.bind scope name value).lookup start name = some value := by
  refine lookup_eq_some_iff.mpr ⟨scope, nearest, ?_⟩
  rw [bindings_bind_self inside, Bindings.find?_set_self]

/-- It is not seen from elsewhere, and no other name is seen to be bound. -/
theorem lookup_bind_of_not_nearest (inside : scope < store.scopes.size) {start : Nat} {asked : String}
    (hidden : ¬(asked = name ∧ Nearest ((store.bind scope name value).chain start)
      (fun i => name ∈ ((store.bind scope name value).bindings i).names) scope)) :
    (store.bind scope name value).lookup start asked = store.lookup start asked := by
  have elsewhere (i : Nat) (different : i ≠ scope) :
      ((store.bind scope name value).bindings i).find? asked = (store.bindings i).find? asked := by
    rw [bindings_bind_of_ne different]
  by_cases same : asked = name
  · subst same
    have bound : (((store.bind scope asked value).bindings scope).find? asked).isSome := by
      rw [bindings_bind_self inside, Bindings.find?_set_self]
      rfl
    rw [lookup, findSome?_eq_of_not_nearest bound elsewhere, chain_bind]
    · rfl
    · simp only [Bindings.isSome_find?_iff]
      exact fun nearest => hidden ⟨rfl, nearest⟩
  · have everywhere (i : Nat) :
        ((store.bind scope name value).bindings i).find? asked = (store.bindings i).find? asked := by
      by_cases here : i = scope
      · rw [here, bindings_bind_self inside, Bindings.find?_set_of_ne same]
      · exact elsewhere i here
    simp only [lookup, chain_bind, everywhere]

/-- What is seen from the scope itself in which a name was bound. -/
theorem lookup_bind_self (inside : scope < store.scopes.size) (name : String) (value : Value)
    (asked : String) :
    (store.bind scope name value).lookup scope asked =
      if asked = name then some value else store.lookup scope asked := by
  split
  case isTrue same =>
    subst same
    obtain ⟨outer, starts⟩ := exists_chain_eq inside
    have here : asked ∈ ((store.bind scope asked value).bindings scope).names := by
      rw [← Bindings.isSome_find?_iff, bindings_bind_self inside, Bindings.find?_set_self]
      rfl
    exact lookup_bind_of_nearest inside ⟨[], outer, (chain_bind _ _ _ _).trans starts, here, by simp⟩
  case isFalse other => exact lookup_bind_of_not_nearest inside fun both => other both.1

end Bind

end Store

/-! ## Entering a function -/

/-- The argument of the last parameter of a name. -/
def argumentOf (parameters : List Name) (arguments : List Value) (name : String) : Option Value :=
  (parameters.zip arguments).reverse.findSome? fun pair =>
    if pair.1.text = name then some pair.2 else none

theorem argumentOf_cons (parameter : Name) (parameters : List Name) (argument : Value)
    (arguments : List Value) (name : String) :
    argumentOf (parameter :: parameters) (argument :: arguments) name =
      (argumentOf parameters arguments name).or
        (if parameter.text = name then some argument else none) := by
  simp only [argumentOf, List.zip_cons_cons, List.reverse_cons, List.findSome?_append,
    List.findSome?_cons, List.findSome?_nil]
  split <;> simp_all

namespace Store

/-- A store in which parameters were bound to arguments, in order. -/
def bindAll (store : Store) (scope : Nat) : List Name → List Value → Store
  | parameter :: parameters, argument :: arguments =>
    { store.bind scope parameter.text argument with
      log := .bound scope parameter.text argument :: store.log }.bindAll scope parameters arguments
  | _, _ => store

/-- A store in which the scope of a call was made and its parameters were bound. -/
def entered (store : Store) (home : Nat) (parameters : List Name) (arguments : List Value) : Store :=
  { store.addScope (some home) with
    log := .opened store.scopes.size home :: store.log }.bindAll store.scopes.size parameters arguments

variable {store : Store} {scope : Nat}

/-- Binding parameters keeps links and other scopes, and the last argument of a name counts. -/
theorem bindAll_spec (inside : scope < store.scopes.size) (parameters : List Name)
    (arguments : List Value) :
    (∀ i : Nat, (store.bindAll scope parameters arguments).scopes[i]?.map Scope.outer =
      store.scopes[i]?.map Scope.outer) ∧
    (∀ i ≠ scope, (store.bindAll scope parameters arguments).bindings i = store.bindings i) ∧
    ∀ name, ((store.bindAll scope parameters arguments).bindings scope).find? name =
      (argumentOf parameters arguments name).or ((store.bindings scope).find? name) := by
  induction parameters generalizing store arguments with
  | nil => exact ⟨fun _ => rfl, fun _ _ => rfl, fun _ => rfl⟩
  | cons parameter parameters ih =>
      cases arguments with
      | nil => exact ⟨fun _ => rfl, fun _ _ => rfl, fun _ => rfl⟩
      | cons argument arguments =>
          have bound : scope < (store.bind scope parameter.text argument).scopes.size := by
            simpa using inside
          obtain ⟨links, others, own⟩ := @ih
            { store.bind scope parameter.text argument with
              log := .bound scope parameter.text argument :: store.log } bound arguments
          refine ⟨fun i => (links i).trans (outer_bind _ _ _ i), fun i different => ?_, fun name => ?_⟩
          · exact (others i different).trans (bindings_bind_of_ne different _ _)
          · have step : ((store.bind scope parameter.text argument).bindings scope).find? name =
                (if parameter.text = name then some argument else none).or
                  ((store.bindings scope).find? name) := by
              rw [bindings_bind_self inside]
              split
              case isTrue same => rw [← same, Bindings.find?_set_self, Option.some_or]
              case isFalse different =>
                rw [Bindings.find?_set_of_ne (Ne.symm different), Option.none_or]
            refine (own name).trans ?_
            rw [argumentOf_cons, Option.or_assoc]
            exact congrArg _ step

theorem outer_addScope (outer : Option Nat) {i : Nat} (old : i < store.scopes.size) :
    (store.addScope outer).scopes[i]?.map Scope.outer = store.scopes[i]?.map Scope.outer := by
  rw [getElem?_addScope, if_neg old.ne]

/-- The chain of a new scope. -/
theorem chain_addScope (home : Nat) :
    (store.addScope (some home)).chain store.scopes.size = store.scopes.size :: store.chain home := by
  have made : (store.addScope (some home)).scopes[store.scopes.size]? = some ⟨some home, []⟩ := by
    rw [getElem?_addScope, if_pos rfl]
  rw [chain.eq_def, made]
  dsimp only
  split
  case isTrue lower =>
    rw [chain_congr fun i below => outer_addScope (some home) (below.trans_lt lower)]
  case isFalse outside =>
    have absent : store.scopes[home]? = none := Array.getElem?_eq_none (Nat.le_of_not_lt outside)
    rw [chain.eq_def, absent]

/-- On entry to a function a name means the argument of the last parameter of that name, and otherwise
what it means in the scope in which the function was made. -/
theorem lookup_entered (home : Nat) (parameters : List Name) (arguments : List Value) (name : String) :
    (store.entered home parameters arguments).lookup store.scopes.size name =
      (argumentOf parameters arguments name).or (store.lookup home name) := by
  have inside : store.scopes.size < (store.addScope (some home)).scopes.size := by simp
  obtain ⟨links, others, own⟩ := @bindAll_spec
    { store.addScope (some home) with log := .opened store.scopes.size home :: store.log }
    store.scopes.size inside parameters arguments
  have linked (i : Nat) : (store.entered home parameters arguments).scopes[i]?.map Scope.outer =
      (store.addScope (some home)).scopes[i]?.map Scope.outer := links i
  have new : (store.addScope (some home)).bindings store.scopes.size = [] := by
    rw [bindings_addScope, bindings, Array.getElem?_eq_none le_rfl]
    rfl
  -- The scopes around the new one are older than it and were not touched.
  have around : (store.chain home).findSome?
        (fun i => ((store.entered home parameters arguments).bindings i).find? name) =
      store.lookup home name := by
    refine findSome?_congr fun i member => ?_
    have older : i ≠ store.scopes.size := (lt_size_of_mem_chain member).ne
    have kept : (store.entered home parameters arguments).bindings i = store.bindings i :=
      (others i older).trans (bindings_addScope store (some home) i)
    rw [kept]
  have here : ((store.entered home parameters arguments).bindings store.scopes.size).find? name =
      argumentOf parameters arguments name := by
    refine (own name).trans ?_
    show (argumentOf parameters arguments name).or
      (((store.addScope (some home)).bindings store.scopes.size).find? name) = _
    rw [new]
    exact Option.or_none
  rw [lookup, chain_congr fun i _ => linked i, chain_addScope, List.findSome?_cons, here, around]
  cases argumentOf parameters arguments name <;> rfl

end Store

theorem Eval.assignAll_eq (scope : Nat) (parameters : List Name) (arguments : List Value) (store : Store) :
    assignAll scope parameters arguments store = .ok () (store.bindAll scope parameters arguments) := by
  induction parameters generalizing store arguments with
  | nil => rfl
  | cons parameter parameters ih =>
      cases arguments with
      | nil => rfl
      | cons argument arguments => exact ih arguments _

/-- A call of a function runs its body in the scope made for it, from the store on that is entered. -/
theorem apply_function_eq {rest id home : Nat} {parameters : List Name} {body : Node}
    {arguments : List Value} (matching : arguments.length = parameters.length) (line : Int)
    (store : Store) :
    apply (rest + 1) (.function id parameters body home) arguments line store =
      (do
        let value ← body.eval (apply rest) store.scopes.size
        Eval.record (.closed store.scopes.size value.unwrapped)
        return value.unwrapped : Eval Value) (store.entered home parameters arguments) := by
  unfold apply
  dsimp only
  rw [if_neg (by simpa using matching)]
  simp only [bind, EStateM.bind, Eval.openScope, get, getThe, MonadStateOf.get, EStateM.get, modify,
    modifyGet, MonadStateOf.modifyGet, EStateM.modifyGet, Eval.record, pure, EStateM.pure,
    Eval.assignAll_eq]
  rfl

end Treewalk

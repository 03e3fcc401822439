import Treewalk.Number.Decimal
import Treewalk.Proofs.Store.Scopes
import Treewalk.Proofs.Value.Renaming

/-!
# Names that a store has given out

A store gives out ids and scope numbers in order. A value is known to a store if no other names stand in
it, which is to say that no renaming changes it that keeps the names given out so far (`Value.Known`);
and a store is rooted if all that its scopes hold is known to it (`Store.Rooted`). Operations commute
with renaming, so they make known values of known values. A renaming that moves all names that are still
to be given out is `Renaming.beyond`.
-/

namespace Treewalk

/-- Nothing that was given out is given out again. -/
structure Store.Below (before after : Store) : Prop where
  ids : before.nextId ≤ after.nextId
  scopes : before.scopes.size ≤ after.scopes.size

theorem Store.Below.refl (store : Store) : store.Below store := ⟨le_rfl, le_rfl⟩

theorem Store.Below.trans {first second third : Store} (one : first.Below second)
    (two : second.Below third) : first.Below third :=
  ⟨one.ids.trans two.ids, one.scopes.trans two.scopes⟩

theorem Store.below_renumber (store : Store) (log : List Event) :
    store.Below { store with nextId := store.nextId + 1, log } :=
  ⟨Nat.le_succ _, le_rfl⟩

namespace Renaming

/-- A renaming that keeps what a store has given out, and lines. -/
structure Fixes (R : Renaming) (store : Store) : Prop where
  line : R.line = id
  ids : ∀ i < store.nextId, R.object i = i
  scopes : ∀ i < store.scopes.size, R.scope i = i

theorem Fixes.mono {R : Renaming} {before after : Store} (fixes : R.Fixes after)
    (below : before.Below after) : R.Fixes before :=
  ⟨fixes.line, fun i old => fixes.ids i (old.trans_le below.ids),
    fun i old => fixes.scopes i (old.trans_le below.scopes)⟩

/-- Ids from `first` on are moved by some, and scopes from `low` on by others. -/
def beyond (first low skipped more : Nat) (positive : 0 < first) : Renaming where
  line := id
  object i := if i < first then i else i + skipped
  scope i := if i < low then i else i + more
  injective := by
    intro i j same
    simp only at same
    split at same <;> split at same <;> omega
  shared := if_pos positive
  ordered := by
    intro i j lower
    show (if i < low then i else i + more) < if j < low then j else j + more
    split <;> split <;> omega

theorem beyond_fixes (store : Store) (skipped more : Nat) (positive : 0 < store.nextId) :
    (beyond store.nextId store.scopes.size skipped more positive).Fixes store :=
  ⟨rfl, fun _ old => if_pos old, fun _ old => if_pos old⟩

end Renaming

/-! ## Known values -/

namespace Value

/-- A value in which only names stand that a store has given out. -/
def Known (store : Store) (value : Value) : Prop :=
  ∀ R : Renaming, R.Fixes store → value.rename R = value

variable {store : Store}

theorem Known.mono {before after : Store} {value : Value} (known : value.Known before)
    (below : before.Below after) : value.Known after :=
  fun R fixes => known R (fixes.mono below)

theorem Atomic.known {value : Value} (atomic : value.Atomic) (other : value.kind ≠ .number) :
    value.Known store :=
  fun _ _ => atomic.rename other

theorem known_array {items : List Value} (known : ∀ item ∈ items, item.Known store) :
    (Value.array store.nextId items).Known { store with nextId := store.nextId + 1 } := by
  intro R fixes
  have earlier : R.Fixes store := fixes.mono (store.below_renumber _)
  have each : items.map (rename R) = items.map id :=
    List.map_congr_left fun item member => known item member R earlier
  rw [rename_array, fixes.ids _ (Nat.lt_succ_self _), each, List.map_id]

/-- The key that a known value gives has no other names in it either. -/
theorem Known.key {given : Value} {key : Key} {R : Renaming} (known : given.rename R = given)
    (usable : given.key? = some key) : key.rename R = key := by
  have renamed := given.key?_rename (R := R)
  rw [known, usable] at renamed
  exact (Option.some.inj renamed).symm

theorem known_hash {entries : Entries}
    (known : ∀ entry ∈ entries,
      (∃ given : Value, given.Known store ∧ given.key? = some entry.1) ∧ entry.2.Known store) :
    (Value.hash store.nextId entries).Known { store with nextId := store.nextId + 1 } := by
  intro R fixes
  have earlier : R.Fixes store := fixes.mono (store.below_renumber _)
  have each : entries.map (renameEntry R) = entries.map id := by
    refine List.map_congr_left fun entry member => ?_
    obtain ⟨⟨given, knownKey, usable⟩, knownValue⟩ := known entry member
    exact Prod.ext (Known.key (knownKey R earlier) usable) (knownValue R earlier)
  rw [rename_hash, fixes.ids _ (Nat.lt_succ_self _), each, List.map_id]

theorem known_function {scope : Nat} (parameters : List Name) (body : Node)
    (inside : scope < store.scopes.size) :
    (Value.function store.nextId parameters body scope).Known
      { store with nextId := store.nextId + 1 } := by
  intro R fixes
  rw [rename, fixes.line, fixes.ids _ (Nat.lt_succ_self _), fixes.scopes scope inside,
    Name.mapLine_id, List.map_id, Node.mapLines_id]

theorem known_error (line : Int) (fault : Fault) (log : List Event) :
    (Value.error store.nextId line fault).Known { store with nextId := store.nextId + 1, log } := by
  intro R fixes
  rw [rename, fixes.line, fixes.ids _ (Nat.lt_succ_self _)]
  rfl

theorem known_result {value : Value} (known : value.Known store) (log : List Event) :
    (Value.result store.nextId value).Known { store with nextId := store.nextId + 1, log } := by
  intro R fixes
  have earlier : R.Fixes store := fixes.mono (store.below_renumber _)
  rw [rename, known R earlier, fixes.ids _ (Nat.lt_succ_self _)]

theorem Known.unwrapped {value : Value} (known : value.Known store) : value.unwrapped.Known store := by
  intro R fixes
  rw [← unwrapped_rename, known R fixes]

theorem Known.part {value part : Value} (known : value.Known store) (member : part ∈ value.parts) :
    part.Known store := by
  intro R fixes
  have fixed := known R fixes
  cases value with
  | array id items =>
      rw [rename_array] at fixed
      have items := (Value.array.inj fixed).2
      exact List.map_eq_map_iff.mp (items.trans (List.map_id _).symm) part member
  | hash id entries =>
      obtain ⟨entry, inside, rfl⟩ := List.mem_map.mp member
      rw [rename_hash] at fixed
      have entries := (Value.hash.inj fixed).2
      have same := List.map_eq_map_iff.mp (entries.trans (List.map_id _).symm) entry inside
      exact congrArg Prod.snd same
  | _ => cases member

/-- A function that is known was made in a scope of the store. -/
theorem Known.home_lt {id home : Nat} {parameters : List Name} {body : Node}
    (known : (Value.function id parameters body home).Known store) (positive : 0 < store.nextId) :
    home < store.scopes.size := by
  have fixed := known _ (Renaming.beyond_fixes store 0 1 positive)
  have same : (if home < store.scopes.size then home else home + 1) = home :=
    (Value.function.inj fixed).2.2.2
  by_contra outside
  rw [if_neg outside] at same
  omega

/-- What commutes with renaming gives known values for known values. -/
theorem eq_of_map_rename {R : Renaming} {outcome : Except Fault Value} {value : Value}
    (same : outcome = outcome.map (rename R)) (given : outcome = .ok value) :
    value.rename R = value := by
  rw [given] at same
  exact (Except.ok.inj same).symm

variable {operator : String} {value : Value}

theorem known_of_unary {operand : Value} (known : operand.Known store)
    (given : Operator.unary store.nextId operator operand = .ok value) :
    value.Known { store with nextId := store.nextId + 1 } := by
  intro R fixes
  have same := Operator.unary_rename (R := R) store.nextId operator operand
  rw [fixes.ids _ (Nat.lt_succ_self _), known R (fixes.mono (store.below_renumber _))] at same
  exact eq_of_map_rename same given

theorem known_of_binary {left right : Value} (knownLeft : left.Known store)
    (knownRight : right.Known store)
    (given : Operator.binary store.nextId operator left right = .ok value) :
    value.Known { store with nextId := store.nextId + 1 } := by
  intro R fixes
  have earlier : R.Fixes store := fixes.mono (store.below_renumber _)
  have same := Operator.binary_rename (R := R) store.nextId operator left right
  rw [fixes.ids _ (Nat.lt_succ_self _), knownLeft R earlier, knownRight R earlier] at same
  exact eq_of_map_rename same given

theorem known_of_builtin {builtin : Builtin} {arguments : List Value}
    (known : ∀ argument ∈ arguments, argument.Known store)
    (given : builtin.apply store.nextId arguments = .ok value) :
    value.Known { store with nextId := store.nextId + 1 } := by
  intro R fixes
  have earlier : R.Fixes store := fixes.mono (store.below_renumber _)
  have each : arguments.map (rename R) = arguments.map id :=
    List.map_congr_left fun argument member => known argument member R earlier
  have same := Builtin.apply_rename (R := R) store.nextId builtin arguments
  rw [fixes.ids _ (Nat.lt_succ_self _), each, List.map_id] at same
  exact eq_of_map_rename same given

end Value

/-- A literal spells no not-a-number but the shared one. -/
theorem Number.rename_of_ofText? {R : Renaming} {literal : String} {x : Number}
    (read : ofText? literal = some x) : x.rename R = x := by
  unfold ofText? at read
  split at read
  case h_1 => cases read
  case h_2 cs _ =>
    dsimp only at read
    split at read
    · cases read
      rfl
    split at read
    · cases read
      exact congrArg Number.nan R.shared
    · unfold ofPlain? at read
      dsimp only at read
      split at read
      · cases read
      · obtain ⟨exponent, -, rfl⟩ := Option.map_eq_some_iff.mp read
        exact rename_round _ _ _

/-! ## Rooted stores -/

namespace Store

/-- A store whose scopes hold only what the store has given out. -/
structure Rooted (store : Store) : Prop where
  positive : 0 < store.nextId
  scopes : ∀ R : Renaming, R.Fixes store → ∀ i : Nat,
    store.scopes[i]?.map (Scope.moved R.scope (Value.rename R)) = store.scopes[i]?

namespace Rooted

variable {store : Store}

theorem renumber (rooted : store.Rooted) (log : List Event) :
    ({ store with nextId := store.nextId + 1, log } : Store).Rooted :=
  ⟨Nat.succ_pos _, fun R fixes => rooted.scopes R (fixes.mono (store.below_renumber _))⟩

theorem note (rooted : store.Rooted) (log : List Event) : ({ store with log } : Store).Rooted :=
  ⟨rooted.positive, fun R fixes => rooted.scopes R ⟨fixes.line, fixes.ids, fixes.scopes⟩⟩

theorem bind (rooted : store.Rooted) (scope : Nat) (name : String) {value : Value}
    (known : value.Known store) : (store.bind scope name value).Rooted := by
  refine ⟨rooted.positive, fun R fixes i => ?_⟩
  have earlier : R.Fixes store := fixes.mono ⟨le_rfl, by simp⟩
  have old := rooted.scopes R earlier i
  rw [getElem?_bind]
  split
  case isFalse => exact old
  case isTrue =>
    cases found : store.scopes[i]? with
    | none => rfl
    | some here =>
        rw [found] at old
        have same : Scope.moved R.scope (Value.rename R) here = here := Option.some.inj old
        have outer : here.outer.map R.scope = here.outer := congrArg Scope.outer same
        have bindings : (here.bindings.map fun binding => (binding.1, binding.2.rename R)) =
            here.bindings := congrArg Scope.bindings same
        simp only [Option.map_some, Scope.moved, Bindings.set_map, outer, bindings, known R earlier]

theorem addScope (rooted : store.Rooted) {outer : Option Nat}
    (inside : ∀ home ∈ outer, home < store.scopes.size) : (store.addScope outer).Rooted := by
  refine ⟨rooted.positive, fun R fixes i => ?_⟩
  have earlier : R.Fixes store := fixes.mono ⟨le_rfl, by simp⟩
  rw [getElem?_addScope]
  split
  case isFalse => exact rooted.scopes R earlier i
  case isTrue =>
    cases outer with
    | none => rfl
    | some home => simp [Scope.moved, earlier.scopes home (inside home rfl)]

/-- What a name is found to mean is known. -/
theorem lookup (rooted : store.Rooted) {scope : Nat} {name : String} {value : Value}
    (inside : scope < store.scopes.size) (found : store.lookup scope name = some value) :
    value.Known store := by
  intro R fixes
  have moved (i : Nat) :
      store.scopes[R.scope i]? = store.scopes[i]?.map (Scope.moved R.scope (Value.rename R)) := by
    rw [rooted.scopes R fixes i]
    by_cases old : i < store.scopes.size
    · rw [fixes.scopes i old]
    · have further : i ≤ R.scope i := R.ordered.le_apply
      rw [Array.getElem?_eq_none (by omega), Array.getElem?_eq_none (by omega)]
  have same := lookup_of_moved moved R.ordered scope name
  rw [fixes.scopes scope inside, found] at same
  exact (Option.some.inj same).symm

end Rooted

end Store

end Treewalk

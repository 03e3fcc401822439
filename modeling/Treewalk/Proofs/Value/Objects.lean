import Treewalk.Proofs.Value.Parts

/-!
# Objects and their ids

Arrays, hashes and functions are objects, and `==` asks for their ids alone. A `Heap` says which object
an id belongs to. `value.Fits heap bound` says that every object in a value is the one that the heap has
under its id, and that its id is below a bound; so values that fit one heap cannot disagree about an
object. A heap grows by an object under the first id that was not given out, and what fits it goes on
fitting.
-/

namespace Treewalk

/-! ## Places in values -/

namespace Value

/-- A value stands in another. -/
inductive Within (value : Value) : Value → Prop
  | root : Within value value
  | under {whole inner : Value} : inner ∈ whole.inside → Within value inner → Within value whole

theorem Within.trans {first second third : Value} (inner : first.Within second)
    (outer : second.Within third) : first.Within third := by
  induction outer with
  | root => exact inner
  | under member _ ih => exact .under member ih

/-- Something holds of a value and of all values that stand in it. -/
def Throughout (holds : Value → Prop) (value : Value) : Prop :=
  ∀ part : Value, part.Within value → holds part

section Throughout

variable {holds : Value → Prop} {value part : Value}

theorem Throughout.here (all : value.Throughout holds) : holds value := all value .root

theorem Throughout.inside (all : value.Throughout holds) (member : part ∈ value.inside) :
    part.Throughout holds :=
  fun inner within => all inner (.under member within)

theorem throughout_of_inside (here : holds value)
    (inside : ∀ inner ∈ value.inside, inner.Throughout holds) : value.Throughout holds := by
  intro part within
  cases within with
  | root => exact here
  | under member deeper => exact inside _ member part deeper

theorem Throughout.of_mem_parts (all : value.Throughout holds) (member : part ∈ value.parts) :
    part.Throughout holds := by
  cases value with
  | array | hash => exact all.inside member
  | _ => cases member

theorem Throughout.unwrapped (all : value.Throughout holds) : value.unwrapped.Throughout holds := by
  cases value with
  | result id inner => exact all.inside List.mem_cons_self
  | _ => exact all

theorem Atomic.throughout (atomic : value.Atomic) (here : holds value) : value.Throughout holds := by
  refine throughout_of_inside here fun inner member => ?_
  cases value <;> first | exact False.elim atomic | cases member

/-- What a built-in function puts together is made of its arguments, the new array itself aside. -/
theorem throughout_of_makes {id : Nat} {arguments : List Value} (makes : Builtin.Makes id arguments value)
    (all : ∀ argument ∈ arguments, argument.Throughout holds) (atoms : ∀ atom, Atomic atom → holds atom)
    (array : ∀ items, value = .array id items → holds value) : value.Throughout holds := by
  cases makes with
  | atom atomic => exact atomic.throughout (atoms _ atomic)
  | part member part => exact (all _ member).of_mem_parts part
  | array origin =>
      refine throughout_of_inside (array _ rfl) fun inner member => ?_
      rcases origin inner member with argument | ⟨argument, given, part⟩
      · exact all inner argument
      · exact (all argument given).of_mem_parts part

end Throughout

/-- The id of an array, a hash or a function. -/
def object? : Value → Option Nat
  | .array id _ | .hash id _ | .function id _ _ _ => some id
  | _ => none

end Value

/-- Two objects of one kind can be compared, and are equal if their ids are. -/
theorem Operator.binary_objects {left right : Value} {i j : Nat} (isLeft : left.object? = some i)
    (isRight : right.object? = some j) (kinds : left.kind = right.kind) (id : Nat) :
    Operator.binary id "==" left right = .ok (.boolean (i == j)) := by
  unfold Operator.binary
  rw [if_pos kinds]
  cases left with
  | array a items =>
      cases right with
      | array b others =>
          cases isLeft
          cases isRight
          rfl
      | _ => cases kinds
  | hash a entries =>
      cases right with
      | hash b others =>
          cases isLeft
          cases isRight
          rfl
      | _ => cases kinds
  | function a parameters body home =>
      cases right with
      | function b names tree scope =>
          cases isLeft
          cases isRight
          rfl
      | _ => cases kinds
  | _ => cases isLeft

/-- Objects that are equal have one id. -/
theorem Operator.id_eq_of_equal {left right : Value} {i j id : Nat} (isLeft : left.object? = some i)
    (isRight : right.object? = some j)
    (equal : Operator.binary id "==" left right = .ok (.boolean true)) : i = j := by
  by_cases kinds : left.kind = right.kind
  · rw [binary_objects isLeft isRight kinds] at equal
    simpa using equal
  · unfold Operator.binary at equal
    rw [if_neg kinds] at equal
    cases equal

/-! ## Heaps -/

/-- Which object an id belongs to. Ids that were not given out, or not to an object, may have anything. -/
abbrev Heap := Nat → Value

/-- A heap and how many ids were given out, before and after more were given out: the old ones still
belong to the same objects. -/
structure Heap.Grows (heap : Heap) (bound : Nat) (later : Heap) (further : Nat) : Prop where
  le : bound ≤ further
  same : ∀ id < bound, later id = heap id

namespace Heap

variable {first second third : Heap} {i j k : Nat}

theorem Grows.refl (heap : Heap) (bound : Nat) : heap.Grows bound heap bound :=
  ⟨le_rfl, fun _ _ => rfl⟩

theorem Grows.trans (one : first.Grows i second j) (two : second.Grows j third k) :
    first.Grows i third k := by
  refine ⟨one.le.trans two.le, fun id old => ?_⟩
  rw [two.same id (old.trans_le one.le), one.same id old]

theorem grows_succ (heap : Heap) (bound : Nat) : heap.Grows bound heap (bound + 1) :=
  ⟨Nat.le_succ bound, fun _ _ => rfl⟩

/-- An object under the first id that was not given out. -/
theorem grows_update (heap : Heap) (bound : Nat) (object : Value) :
    heap.Grows bound (Function.update heap bound object) (bound + 1) :=
  ⟨Nat.le_succ bound, fun _ old => Function.update_of_ne old.ne _ _⟩

end Heap

namespace Value

/-- Every object in the value is the one that the heap has under its id, and that id was given out. -/
def Fits (heap : Heap) (bound : Nat) (value : Value) : Prop :=
  ∀ part id, part.Within value → part.object? = some id → id < bound ∧ heap id = part

section Fits

variable {heap later : Heap} {bound further : Nat} {value part : Value}

theorem fits_iff_throughout : value.Fits heap bound ↔
    value.Throughout fun part => ∀ id, part.object? = some id → id < bound ∧ heap id = part :=
  ⟨fun fits part within id => fits part id within, fun all part id within => all part within id⟩

theorem Fits.within (fits : value.Fits heap bound) (within : part.Within value) :
    part.Fits heap bound :=
  fun inner id inside isObject => fits inner id (inside.trans within) isObject

theorem Fits.inside (fits : value.Fits heap bound) (member : part ∈ value.inside) :
    part.Fits heap bound :=
  fits_iff_throughout.mpr ((fits_iff_throughout.mp fits).inside member)

theorem Fits.of_mem_parts (fits : value.Fits heap bound) (member : part ∈ value.parts) :
    part.Fits heap bound :=
  fits_iff_throughout.mpr ((fits_iff_throughout.mp fits).of_mem_parts member)

/-- What fits goes on fitting. -/
theorem Fits.mono (fits : value.Fits heap bound) (grows : heap.Grows bound later further) :
    value.Fits later further := by
  intro part id within isObject
  obtain ⟨old, same⟩ := fits part id within isObject
  exact ⟨old.trans_le grows.le, (grows.same id old).trans same⟩

/-- A value fits if what is inside it does, and itself if it is an object. -/
theorem fits_of_inside (inside : ∀ inner ∈ value.inside, inner.Fits heap bound)
    (here : ∀ id, value.object? = some id → id < bound ∧ heap id = value) : value.Fits heap bound :=
  fits_iff_throughout.mpr
    (throughout_of_inside here fun inner member => fits_iff_throughout.mp (inside inner member))

theorem Atomic.fits (atomic : value.Atomic) : value.Fits heap bound := by
  refine fits_iff_throughout.mpr (atomic.throughout fun id isObject => ?_)
  cases value <;> first | exact False.elim atomic | cases isObject

theorem fits_error (id : Nat) (line : Int) (fault : Fault) : (error id line fault).Fits heap bound := by
  refine fits_of_inside (fun inner member => ?_) fun id isObject => ?_
  · cases member
  · cases isObject

theorem Fits.result (fits : value.Fits heap bound) (id : Nat) :
    (Value.result id value).Fits heap bound := by
  refine fits_of_inside (fun inner member => ?_) fun id isObject => ?_
  · rw [List.mem_singleton.mp member]
    exact fits
  · cases isObject

theorem Fits.unwrapped (fits : value.Fits heap bound) : value.unwrapped.Fits heap bound :=
  fits_iff_throughout.mpr (fits_iff_throughout.mp fits).unwrapped

/-- A new object fits the heap that it is put into. -/
theorem fits_update (isObject : value.object? = some bound)
    (inside : ∀ inner ∈ value.inside, inner.Fits heap bound) :
    value.Fits (Function.update heap bound value) (bound + 1) := by
  refine fits_of_inside (fun inner member => (inside inner member).mono (heap.grows_update _ _)) ?_
  intro id isId
  rw [isObject] at isId
  cases isId
  exact ⟨Nat.lt_succ_self bound, Function.update_self _ _ _⟩

/-- No object in the value has this id or a later one. -/
def Older (id : Nat) (value : Value) : Prop :=
  ∀ (part : Value) (other : Nat), part.Within value → part.object? = some other → other < id

theorem Fits.older (fits : value.Fits heap bound) : value.Older bound :=
  fun part id within isObject => (fits part id within isObject).1

end Fits

end Value

/-! ## Built-in functions -/

namespace Builtin

/-- What a built-in function puts together fits if its arguments do, the new array itself aside. -/
theorem Makes.inside_fits {heap : Heap} {bound id : Nat} {arguments : List Value} {value : Value}
    (makes : Makes id arguments value)
    (fits : ∀ argument ∈ arguments, argument.Fits heap bound) :
    ∀ inner ∈ value.inside, inner.Fits heap bound := by
  cases makes with
  | atom atomic => exact fun inner member => atomic.fits.inside member
  | part member part => exact fun inner inside => ((fits _ member).of_mem_parts part).inside inside
  | array origin =>
      intro inner member
      rcases origin inner member with argument | ⟨argument, given, part⟩
      · exact fits inner argument
      · exact (fits argument given).of_mem_parts part

/-- The functions that give a new array. -/
def makers : List Builtin := [.rest, .push]

/-- An array that one of them gives has the id that was handed in. -/
theorem object?_of_result {builtin : Builtin} {id : Nat} {arguments : List Value} {value : Value}
    (maker : builtin ∈ makers) (given : builtin.result id arguments = .ok value)
    (isArray : value.kind = .array) : value.object? = some id := by
  unfold result at given
  split at given
  case h_6 argument =>
    cases argument with
    | array other items =>
        cases items with
        | nil =>
            cases given
            cases isArray
        | cons first others =>
            cases given
            rfl
    | _ => cases given
  case h_7 argument last =>
    cases argument with
    | array other items =>
        cases given
        rfl
    | _ => cases given
  case h_8 =>
    cases given
    cases isArray
  all_goals exact absurd maker (by decide)

theorem object?_of_apply {builtin : Builtin} {id : Nat} {arguments : List Value} {value : Value}
    (maker : builtin ∈ makers) (given : builtin.apply id arguments = .ok value)
    (isArray : value.kind = .array) : value.object? = some id := by
  unfold apply at given
  split at given
  · split at given
    · exact object?_of_result maker given isArray
    · cases given
  · exact object?_of_result maker given isArray

end Builtin

end Treewalk

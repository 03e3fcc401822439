import Mathlib
import Treewalk.Eval.Builtin
import Treewalk.Eval.Operator

/-!
# What operations make of values

An operation on values makes a value without parts, hands out a part of a value it was given, or puts
what it was given into a new array. Nothing else can come out of an operator, of indexing or of a
built-in function, whatever goes in.
-/

namespace Treewalk

namespace Value

/-- Values without parts. -/
def Atomic : Value → Prop
  | .null | .boolean _ | .number _ | .text _ | .builtin _ => True
  | _ => False

/-- The values that an array or a hash holds. -/
def parts : Value → List Value
  | .array _ items => items
  | .hash _ entries => entries.map Prod.snd
  | _ => []

theorem Atomic.isSignal_eq_false {value : Value} (atomic : value.Atomic) :
    value.isSignal = false := by
  cases value <;> first | rfl | exact False.elim atomic

/-- The values right inside a value: its parts, or what is on its way back in it. -/
def inside : Value → List Value
  | .result _ value => [value]
  | value => value.parts

theorem sizeOf_inside_lt {value inner : Value} (member : inner ∈ value.inside) :
    sizeOf inner < sizeOf value := by
  cases value with
  | array id items =>
      have below := List.sizeOf_lt_of_mem (show inner ∈ items from member)
      simp
      omega
  | hash id entries =>
      obtain ⟨⟨key, held⟩, among, rfl⟩ := List.mem_map.mp member
      have below := List.sizeOf_lt_of_mem among
      simp at below ⊢
      omega
  | result id held =>
      rw [List.mem_singleton.mp member]
      simp
  | null | boolean | number | text | function | builtin | error => cases member

/-- Induction on values: what passes from the values inside a value to the value holds of all. -/
theorem inside_induction {motive : Value → Prop}
    (step : ∀ value, (∀ inner ∈ value.inside, motive inner) → motive value) (value : Value) :
    motive value :=
  step value fun inner _ => inside_induction step inner
termination_by sizeOf value
decreasing_by exact sizeOf_inside_lt ‹_›

end Value

/-- An entry of a hash after another was put in is the new one or was there before. -/
theorem Entries.mem_insert {key : Key} {value : Value} {entries : Entries} {entry : Key × Value}
    (member : entry ∈ Entries.insert key value entries) : entry = (key, value) ∨ entry ∈ entries := by
  induction entries with
  | nil => exact .inl (List.mem_singleton.mp member)
  | cons first more ih =>
      simp only [Entries.insert] at member
      split at member
      · rcases List.mem_cons.mp member with same | inside
        · exact .inl same
        · exact .inr (List.mem_cons_of_mem _ inside)
      · rcases List.mem_cons.mp member with rfl | inside
        · exact .inr List.mem_cons_self
        · exact (ih inside).imp_right (List.mem_cons_of_mem _)

namespace Operator

theorem unary_atomic {id : Nat} {operator : String} {operand value : Value}
    (given : unary id operator operand = .ok value) : value.Atomic := by
  unfold unary at given
  split at given <;> cases given <;> trivial

theorem binary_atomic {id : Nat} {operator : String} {left right value : Value}
    (given : binary id operator left right = .ok value) : value.Atomic := by
  unfold binary at given
  dsimp only at given
  split at given
  case isFalse => cases given
  case isTrue =>
    split at given
    case h_2 => cases given
    case h_1 outcome found =>
      cases given
      split at found
      · unfold numeric? at found
        split at found <;> cases found <;> trivial
      · unfold textual? at found
        split at found <;> cases found <;> trivial
      · unfold identical? at found
        split at found <;> cases found <;> trivial

/-- Indexing gives null or a part of the value that is indexed. -/
theorem index_part {subject position value : Value} (given : index subject position = .ok value) :
    value = .null ∨ value ∈ subject.parts := by
  unfold index at given
  split at given
  case h_3 => cases given
  case h_1 items =>
    split at given
    case h_2 => cases given
    case h_1 =>
      split at given <;> cases given
      case h_2 => exact .inl rfl
      case h_1 n _ =>
        split
        · exact .inl rfl
        · cases found : items[n.toNat]? with
          | none => exact .inl rfl
          | some item => exact .inr (List.mem_of_getElem? found)
  case h_2 entries =>
    split at given <;> cases given
    case h_1 key _ =>
      cases found : Entries.find? entries key with
      | none => exact .inl rfl
      | some item =>
          obtain ⟨entry, here, rfl⟩ := Option.map_eq_some_iff.mp found
          exact .inr (List.mem_map_of_mem (List.mem_of_find?_eq_some here))

end Operator

namespace Builtin

/-- What a built-in function may give for arguments: the new array has the id that was handed in. -/
inductive Makes (id : Nat) (arguments : List Value) : Value → Prop
  | atom {value : Value} : value.Atomic → Makes id arguments value
  | part {argument value : Value} : argument ∈ arguments → value ∈ argument.parts →
      Makes id arguments value
  | array {items : List Value} :
      (∀ item ∈ items, item ∈ arguments ∨ ∃ argument ∈ arguments, item ∈ argument.parts) →
      Makes id arguments (.array id items)

/-- What a function makes of the items of an array argument, which are parts of that argument. -/
theorem makes_of_items {builtin : Builtin} {id : Nat} {arguments : List Value}
    {argument value : Value} {make : List Value → Value}
    (makes : ∀ items : List Value, (∀ item ∈ items, item ∈ argument.parts) →
      Makes id arguments (make items))
    (given : (items builtin argument).map make = .ok value) : Makes id arguments value := by
  unfold items at given
  split at given <;> cases given
  exact makes _ fun item member => member

theorem result_makes {id : Nat} {builtin : Builtin} {arguments : List Value} {value : Value}
    (given : builtin.result id arguments = .ok value) : Makes id arguments value := by
  unfold result at given
  split at given
  case h_1 | h_2 =>
    cases given
    exact .atom trivial
  case h_3 => cases given
  case h_4 argument =>
    refine makes_of_items (fun items parts => ?_) given
    cases items with
    | nil => exact .atom trivial
    | cons first _ => exact .part List.mem_cons_self (parts first List.mem_cons_self)
  case h_5 argument =>
    refine makes_of_items (fun items parts => ?_) given
    cases found : items.getLast? with
    | none => exact .atom trivial
    | some last => exact .part List.mem_cons_self (parts last (List.mem_of_getLast? found))
  case h_6 argument =>
    refine makes_of_items (fun items parts => ?_) given
    cases items with
    | nil => exact .atom trivial
    | cons _ others =>
        refine .array fun item member => .inr ⟨argument, List.mem_cons_self, ?_⟩
        exact parts item (List.mem_cons_of_mem _ member)
  case h_7 argument last =>
    refine makes_of_items (fun items parts => ?_) given
    refine .array fun item member => ?_
    rcases List.mem_append.mp member with inside | new
    · exact .inr ⟨argument, List.mem_cons_self, parts item inside⟩
    · rw [List.mem_singleton.mp new]
      exact .inl (by simp)
  case h_8 =>
    cases given
    exact .atom trivial

theorem apply_makes {id : Nat} {builtin : Builtin} {arguments : List Value} {value : Value}
    (given : builtin.apply id arguments = .ok value) : Makes id arguments value := by
  unfold apply at given
  split at given
  · split at given
    · exact result_makes given
    · cases given
  · exact result_makes given

end Builtin

end Treewalk

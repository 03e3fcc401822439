import Treewalk.Proofs.Tree.Subtree
import Treewalk.Proofs.Value.Parts

/-!
# Plain values

A *plain* value is no signal and holds none, at whatever depth. The keys of a hash are plain by their
type, so only its values are asked about. Functions hold a tree instead of values; what is known of
trees is carried along as a `fact` that holds at every place of the body of every function in a value.
-/

namespace Treewalk

namespace Value

variable {fact : Node → Prop}

/-- No signal stands in the value, and `fact` holds of the trees of its functions. -/
inductive Plain (fact : Node → Prop) : Value → Prop
  | null : Plain fact .null
  | boolean {b : Bool} : Plain fact (.boolean b)
  | number {x : Number} : Plain fact (.number x)
  | text {s : String} : Plain fact (.text s)
  | builtin {b : Builtin} : Plain fact (.builtin b)
  | array {id : Nat} {items : List Value} :
      (∀ item ∈ items, Plain fact item) → Plain fact (.array id items)
  | hash {id : Nat} {entries : List (Key × Value)} :
      (∀ entry ∈ entries, Plain fact entry.2) → Plain fact (.hash id entries)
  | function {id : Nat} {parameters : List Name} {body : Node} {home : Nat} :
      body.Every fact → Plain fact (.function id parameters body home)

/-- What running a tree may give: a plain value, an error, or a plain value on its way back. -/
def Proper (fact : Node → Prop) : Value → Prop
  | .result _ value => value.Plain fact
  | .error .. => True
  | value => value.Plain fact

/-- What a call or a program may give: a plain value or an error. -/
def Settled (fact : Node → Prop) (value : Value) : Prop :=
  value.Proper fact ∧ value.kind ≠ .result

theorem Plain.isSignal_eq_false {value : Value} (plain : value.Plain fact) :
    value.isSignal = false := by
  cases plain <;> rfl

theorem Atomic.plain {value : Value} (atomic : value.Atomic) : value.Plain fact := by
  cases value <;> first | exact False.elim atomic | constructor

theorem Plain.proper {value : Value} (plain : value.Plain fact) : value.Proper fact := by
  cases plain <;> constructor <;> assumption

theorem Plain.settled {value : Value} (plain : value.Plain fact) : value.Settled fact := by
  refine ⟨plain.proper, ?_⟩
  cases plain <;> simp [kind]

/-- What is no signal may be stored. -/
theorem Proper.plain {value : Value} (proper : value.Proper fact) (ordinary : value.isSignal = false) :
    value.Plain fact := by
  cases value with
  | result => cases ordinary
  | error => cases ordinary
  | _ => exact proper

/-- What a call or a program gives may be stored if it is no error. -/
theorem Settled.plain {value : Value} (settled : value.Settled fact) (ordinary : value.kind ≠ .error) :
    value.Plain fact := by
  refine settled.1.plain ?_
  cases value with
  | result => exact absurd rfl settled.2
  | error => exact absurd rfl ordinary
  | _ => rfl

/-- Taking the value out of what is on its way back leaves no signal but an error. -/
theorem Proper.unwrapped {value : Value} (proper : value.Proper fact) :
    value.unwrapped.Settled fact := by
  cases value with
  | result id inner =>
      have plain : inner.Plain fact := proper
      exact plain.settled
  | error => exact ⟨trivial, by simp [Value.unwrapped, kind]⟩
  | _ => exact ⟨proper, by simp [Value.unwrapped, kind]⟩

theorem Plain.parts {value part : Value} (plain : value.Plain fact) (member : part ∈ value.parts) :
    part.Plain fact := by
  cases plain with
  | array all => exact all part member
  | hash all =>
      obtain ⟨entry, inside, rfl⟩ := List.mem_map.mp member
      exact all entry inside
  | _ => cases member

theorem Plain.body {id : Nat} {parameters : List Name} {body : Node} {home : Nat}
    (plain : (Value.function id parameters body home).Plain fact) : body.Every fact := by
  cases plain with
  | function every => exact every

/-- A built-in function makes plain values of plain arguments. -/
theorem plain_of_makes {id : Nat} {arguments : List Value} {value : Value}
    (plain : ∀ argument ∈ arguments, argument.Plain fact)
    (made : Builtin.Makes id arguments value) : value.Plain fact := by
  cases made with
  | atom atomic => exact atomic.plain
  | part member inside => exact (plain _ member).parts inside
  | array parts =>
      refine .array fun item member => ?_
      rcases parts item member with given | ⟨argument, given, inside⟩
      · exact plain item given
      · exact (plain argument given).parts inside

end Value

end Treewalk

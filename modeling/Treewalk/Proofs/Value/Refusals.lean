import Treewalk.Proofs.Value.Parts

/-!
# What operations refuse

For each operation on values, the faults that it can find and what it has found then. An operation that
refuses its operands names their kinds and nothing else of them.
-/

namespace Treewalk

/-- The operators that stand between two values of a kind. -/
def Kind.operators : Kind → List String
  | .number => ["+", "-", "*", "/", "<", ">", "<=", ">=", "==", "!="]
  | .text => ["+", "==", "!="]
  | _ => ["==", "!="]

/-- Values of a kind that a hash can be asked for. -/
def Kind.isKey : Kind → Bool
  | .number | .boolean | .text => true
  | _ => false

theorem Value.key?_eq_none_iff {value : Value} : value.key? = none ↔ value.kind.isKey = false := by
  cases value <;> simp [key?, kind, Kind.isKey]

namespace Operator

theorem unary_error {id : Nat} {operator : String} {operand : Value} {fault : Fault}
    (failed : unary id operator operand = .error fault) :
    operator ≠ "!" ∧ (operator = "-" → operand.kind ≠ .number) ∧
      fault = .unknownUnary operator operand.kind := by
  unfold unary at failed
  split at failed
  case h_1 => cases failed
  case h_2 => cases failed
  case h_3 notBang notNumber =>
    cases failed
    refine ⟨fun isBang => notBang isBang, fun isMinus isNumber => ?_, rfl⟩
    cases operand with
    | number x => exact notNumber x isMinus rfl
    | _ => cases isNumber

theorem numeric?_eq_none {id : Nat} {operator : String} {x y : Number}
    (none : numeric? id operator x y = none) : operator ∉ Kind.number.operators := by
  unfold numeric? at none
  split at none
  case h_11 => simp_all [Kind.operators]
  all_goals cases none

theorem textual?_eq_none {operator s t : String} (none : textual? operator s t = none) :
    operator ∉ Kind.text.operators := by
  unfold textual? at none
  split at none
  case h_4 => simp_all [Kind.operators]
  all_goals cases none

theorem identical?_eq_none {operator : String} {left right : Value}
    (none : identical? operator left right = none) : operator ∉ ["==", "!="] := by
  unfold identical? at none
  split at none
  case h_3 => simp_all
  all_goals cases none

/-- Operands of two kinds are refused, and so is an operator that their common kind does not have. -/
theorem binary_error {id : Nat} {operator : String} {left right : Value} {fault : Fault}
    (failed : binary id operator left right = .error fault) :
    left.kind ≠ right.kind ∧ fault = .mismatch left.kind operator right.kind ∨
      operator ∉ left.kind.operators ∧ fault = .unknownBinary left.kind operator left.kind := by
  unfold binary at failed
  dsimp only at failed
  split at failed
  case isFalse differ =>
    cases failed
    exact .inl ⟨differ, rfl⟩
  case isTrue same =>
    split at failed
    case h_1 => cases failed
    case h_2 none =>
      cases failed
      refine .inr ⟨?_, by rw [same]⟩
      split at none
      case h_1 => exact numeric?_eq_none none
      case h_2 => exact textual?_eq_none none
      case h_3 notNumbers notTexts =>
        have neither := identical?_eq_none none
        cases left with
        | number x =>
            cases right with
            | number y => exact (notNumbers x y rfl rfl).elim
            | _ => cases same
        | text s =>
            cases right with
            | text t => exact (notTexts s t rfl rfl).elim
            | _ => cases same
        | _ => exact neither

/-- What indexing refuses: a position that is no number in an array, one that is no key in a hash, and
everything else that should hold something. -/
theorem index_error {subject position : Value} {fault : Fault}
    (failed : index subject position = .error fault) :
    position.kind ≠ .number ∧ fault = .positionKind position.kind ∨
      position.kind.isKey = false ∧ fault = .unusableKey position.kind ∨
      subject.kind ≠ .array ∧ subject.kind ≠ .hash ∧ fault = .notIndexable subject.kind := by
  unfold index at failed
  split at failed
  case h_1 =>
    split at failed
    case h_1 => split at failed <;> cases failed
    case h_2 notNumber =>
      cases failed
      refine .inl ⟨fun isNumber => ?_, rfl⟩
      cases position with
      | number x => exact notNumber x rfl
      | _ => cases isNumber
  case h_2 =>
    split at failed
    case h_1 => cases failed
    case h_2 noKey =>
      cases failed
      exact .inr (.inl ⟨Value.key?_eq_none_iff.mp noKey, rfl⟩)
  case h_3 notArray notHash =>
    cases failed
    refine .inr (.inr ?_)
    cases subject with
    | array id items => exact absurd rfl (notArray id items)
    | hash id entries => exact absurd rfl (notHash id entries)
    | _ => exact ⟨by simp [Value.kind], by simp [Value.kind], rfl⟩

end Operator

namespace Builtin

/-- The functions that take an array apart. -/
def takesArray : List Builtin := [.first, .last, .rest, .push]

theorem items_error {builtin : Builtin} {argument : Value} {fault : Fault}
    (failed : items builtin argument = .error fault) :
    argument.kind ≠ .array ∧ fault = .notAnArray builtin argument.kind := by
  unfold items at failed
  split at failed
  case h_1 => cases failed
  case h_2 notArray =>
    cases failed
    refine ⟨fun isArray => ?_, rfl⟩
    cases argument with
    | array id items => exact notArray id items rfl
    | _ => cases isArray

/-- What built-in functions refuse of arguments of the right number. -/
inductive Refuses (arguments : List Value) : Fault → Prop
  | noLength {argument : Value} : argument ∈ arguments → argument.kind ≠ .text → argument.kind ≠ .array →
      Refuses arguments (.noLength argument.kind)
  | notAnArray {builtin : Builtin} {argument : Value} : builtin ∈ takesArray → argument ∈ arguments →
      argument.kind ≠ .array → Refuses arguments (.notAnArray builtin argument.kind)

theorem refuses_of_items {α : Type} {builtin : Builtin} {argument : Value} {arguments : List Value}
    {give : List Value → α} {fault : Fault} (takes : builtin ∈ takesArray) (member : argument ∈ arguments)
    (failed : (items builtin argument).map give = .error fault) : Refuses arguments fault := by
  cases given : items builtin argument with
  | ok items =>
      rw [given] at failed
      cases failed
  | error found =>
      rw [given] at failed
      cases failed
      obtain ⟨notArray, rfl⟩ := items_error given
      exact .notAnArray takes member notArray

theorem result_refuses {id : Nat} {builtin : Builtin} {arguments : List Value} {fault : Fault}
    (failed : result id builtin arguments = .error fault) : Refuses arguments fault := by
  unfold result at failed
  split at failed
  case h_3 argument notText notArray =>
    cases failed
    refine .noLength (by simp) (fun isText => ?_) fun isArray => ?_
    · cases argument with
      | text s => exact notText s rfl
      | _ => cases isText
    · cases argument with
      | array id items => exact notArray id items rfl
      | _ => cases isArray
  case h_4 | h_5 | h_6 | h_7 => exact refuses_of_items (by decide) (by simp) failed
  all_goals cases failed

/-- What built-in functions refuse. -/
theorem apply_error {id : Nat} {builtin : Builtin} {arguments : List Value} {fault : Fault}
    (failed : apply id builtin arguments = .error fault) :
    (∃ expected, expected ≠ arguments.length ∧ fault = .arity expected arguments.length) ∨
      Refuses arguments fault := by
  unfold apply at failed
  split at failed
  case h_1 expected fixed =>
    split at failed
    case isTrue => exact .inr (result_refuses failed)
    case isFalse differ =>
      cases failed
      exact .inl ⟨expected, Ne.symm differ, rfl⟩
  case h_2 => exact .inr (result_refuses failed)

end Builtin

end Treewalk

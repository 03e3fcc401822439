import Treewalk.Proofs.Eval.Ends

/-!
# Equality

Whether two values are equal is decided in several places: numbers by their place in the order of numbers,
texts by their characters, other values by what object they are, and keys by a rule of their own.
`Value.mark` is the one thing that all of them go by. Two values of a kind are equal if they have the same
mark (`Operator.answers_equals`), a not-a-number has none, and keys agree with that wherever there is one
(`Value.same_key_iff`).

A not-a-number is no number and still a key: as keys, numbers are the same if they are equal or one and
the same (`Key.Equal`).
-/

namespace Treewalk

/-! ## Numbers and keys -/

namespace Number

variable {x y z : Number}

/-- Numbers are equal if they stand at the same place. -/
theorem eq_iff : x.eq y ↔ ∃ place, x.rank = some place ∧ y.rank = some place := by
  unfold eq
  cases x.rank with
  | none => simp
  | some a =>
      cases y.rank with
      | none => simp
      | some b =>
          simp only [beq_iff_eq, Option.some.injEq]
          constructor
          · exact fun same => ⟨a, rfl, same.symm⟩
          · rintro ⟨place, first, second⟩
            exact first.trans second.symm

theorem eq_symm (same : x.eq y) : y.eq x := by
  obtain ⟨place, first, second⟩ := eq_iff.mp same
  exact eq_iff.mpr ⟨place, second, first⟩

theorem eq_trans (one : x.eq y) (two : y.eq z) : x.eq z := by
  obtain ⟨place, first, middle⟩ := eq_iff.mp one
  obtain ⟨other, again, last⟩ := eq_iff.mp two
  rw [middle, Option.some.injEq] at again
  exact eq_iff.mpr ⟨place, first, again ▸ last⟩

theorem rank_eq_none_iff : x.rank = none ↔ x.isNaN := by
  cases x <;> simp [rank, isNaN]

theorem eq_self_iff : x.eq x ↔ x.isNaN = false := by
  rw [eq_iff]
  cases place : x.rank with
  | none => simp [rank_eq_none_iff.mp place]
  | some a => simp [← Bool.not_eq_true, ← rank_eq_none_iff, place]

/-- As keys, numbers are the same if they are equal, or one and the same number. -/
theorem same_iff : x.same y ↔ x.eq y ∨ x = y := by
  cases x with
  | nan payload =>
      cases y with
      | nan other => simp [same, eq, rank]
      | _ => simp [same]
  | infinite negative =>
      have self : (infinite negative).eq (infinite negative) := eq_self_iff.mpr rfl
      refine ⟨fun same => .inl (by cases y <;> exact same), ?_⟩
      rintro (equal | rfl)
      · cases y <;> exact equal
      · exact self
  | finite negative count valid =>
      have self : (finite negative count valid).eq (finite negative count valid) := eq_self_iff.mpr rfl
      refine ⟨fun same => .inl (by cases y <;> exact same), ?_⟩
      rintro (equal | rfl)
      · cases y <;> exact equal
      · exact self

end Number

namespace Key

variable {k l m : Key}

/-- Keys that count as one: of one kind and of equal value, or numbers that are one and the same. -/
def Equal : Key → Key → Prop
  | .number x, .number y => x.eq y ∨ x = y
  | .boolean a, .boolean b => a = b
  | .text s, .text t => s = t
  | _, _ => False

theorem same_iff : k.same l ↔ k.Equal l := by
  cases k with
  | number x =>
      cases l with
      | number y => exact Number.same_iff
      | _ => simp [same, Equal]
  | boolean a => cases l <;> simp [same, Equal]
  | text s => cases l <;> simp [same, Equal]

theorem Equal.refl (k : Key) : k.Equal k := by
  cases k with
  | number x => exact .inr rfl
  | boolean a => rfl
  | text s => rfl

theorem Equal.symm (equal : k.Equal l) : l.Equal k := by
  cases k with
  | number x =>
      cases l with
      | number y => exact equal.imp Number.eq_symm Eq.symm
      | _ => cases equal
  | boolean a =>
      cases l with
      | boolean b => exact Eq.symm equal
      | _ => cases equal
  | text s =>
      cases l with
      | text t => exact Eq.symm equal
      | _ => cases equal

theorem Equal.trans (one : k.Equal l) (two : l.Equal m) : k.Equal m := by
  cases l with
  | number y =>
      cases k with
      | number x =>
          cases m with
          | number z =>
              rcases one with first | rfl
              · rcases two with second | rfl
                · exact .inl (Number.eq_trans first second)
                · exact .inl first
              · exact two
          | _ => cases two
      | _ => cases one
  | boolean b =>
      cases k with
      | boolean a =>
          cases m with
          | boolean c => exact Eq.trans one two
          | _ => cases two
      | _ => cases one
  | text t =>
      cases k with
      | text s =>
          cases m with
          | text u => exact Eq.trans one two
          | _ => cases two
      | _ => cases one

theorem equivalence_equal : Equivalence Equal := ⟨Equal.refl, Equal.symm, Equal.trans⟩

end Key

/-! ## Marks -/

/-- What equality looks at in a value. -/
inductive Mark where
  | nothing
  | truth (b : Bool)
  | place (rank : Int)
  | letters (s : String)
  | object (id : Nat)
  | builtin (b : Builtin)
  deriving DecidableEq

namespace Value

variable {a b c : Value}

/-- The mark by which a value is told from others of its kind; a not-a-number has none. -/
def mark : Value → Option Mark
  | .null => some .nothing
  | .boolean b => some (.truth b)
  | .number x => x.rank.map .place
  | .text s => some (.letters s)
  | .array id _ | .hash id _ | .function id _ _ _ | .result id _ | .error id _ _ => some (.object id)
  | .builtin b => some (.builtin b)

/-- Whether two values of one kind are equal. -/
def equal (a b : Value) : Bool := a.mark.isSome && a.mark = b.mark

def isNaN : Value → Bool
  | .number x => x.isNaN
  | _ => false

theorem equal_iff : a.equal b ↔ ∃ mark, a.mark = some mark ∧ b.mark = some mark := by
  unfold equal
  cases a.mark with
  | none => simp
  | some mark => simp [eq_comm]

theorem equal_comm (a b : Value) : a.equal b = b.equal a := by
  rw [Bool.eq_iff_iff, equal_iff, equal_iff]
  exact exists_congr fun mark => and_comm

theorem equal_trans (one : a.equal b) (two : b.equal c) : a.equal c := by
  obtain ⟨mark, first, middle⟩ := equal_iff.mp one
  obtain ⟨other, again, last⟩ := equal_iff.mp two
  rw [middle, Option.some.injEq] at again
  exact equal_iff.mpr ⟨mark, first, again ▸ last⟩

theorem mark_eq_none_iff : a.mark = none ↔ a.isNaN := by
  cases a with
  | number x => simp [mark, isNaN, Number.rank_eq_none_iff]
  | _ => simp [mark, isNaN]

theorem equal_self_iff : a.equal a ↔ a.isNaN = false := by
  rw [← Bool.not_eq_true, ← mark_eq_none_iff, equal_iff]
  cases a.mark <;> simp

theorem equal_eq_false_of_isNaN (nan : a.isNaN) (b : Value) : a.equal b = false := by
  rw [equal, mark_eq_none_iff.mpr nan]
  rfl

/-- Values other than numbers are equal if they are the same object. -/
theorem same_eq_equal (one : a.kind = b.kind) (other : a.kind ≠ .number) : a.same b = a.equal b := by
  cases a with
  | number x => exact absurd rfl other
  | null =>
      cases b with
      | null => rfl
      | _ => cases one
  | boolean x =>
      cases b with
      | boolean y => simp [same, equal, mark, beq_eq_decide]
      | _ => cases one
  | text s =>
      cases b with
      | text t => simp [same, equal, mark, beq_eq_decide]
      | _ => cases one
  | array id items =>
      cases b with
      | array other items => simp [same, equal, mark, beq_eq_decide]
      | _ => cases one
  | hash id entries =>
      cases b with
      | hash other entries => simp [same, equal, mark, beq_eq_decide]
      | _ => cases one
  | function id parameters body home =>
      cases b with
      | function other parameters body home => simp [same, equal, mark, beq_eq_decide]
      | _ => cases one
  | builtin x =>
      cases b with
      | builtin y => simp [same, equal, mark, beq_eq_decide]
      | _ => cases one
  | result id value =>
      cases b with
      | result other value => simp [same, equal, mark, beq_eq_decide]
      | _ => cases one
  | error id line fault =>
      cases b with
      | error other line fault => simp [same, equal, mark, beq_eq_decide]
      | _ => cases one

theorem equal_number (x y : Number) : (Value.number x).equal (.number y) = x.eq y := by
  rw [Bool.eq_iff_iff, equal_iff, Number.eq_iff]
  simp [mark]

/-- The keys of two values are the same exactly if the values are of one kind and equal; a not-a-number
is the key of itself alone. -/
theorem same_key_iff {k l : Key} (one : a.key? = some k) (two : b.key? = some l) :
    k.same l ↔ a.kind = b.kind ∧ (a.equal b ∨ a = b) := by
  rw [Key.same_iff]
  cases a with
  | number x =>
      cases one
      cases b with
      | number y =>
          cases two
          simp [Key.Equal, kind, equal_number]
      | boolean | text =>
          cases two
          simp [Key.Equal, kind]
      | _ => cases two
  | boolean x =>
      cases one
      cases b with
      | boolean y =>
          cases two
          simp [Key.Equal, kind, equal, mark]
      | number | text =>
          cases two
          simp [Key.Equal, kind]
      | _ => cases two
  | text s =>
      cases one
      cases b with
      | text t =>
          cases two
          simp [Key.Equal, kind, equal, mark]
      | number | boolean =>
          cases two
          simp [Key.Equal, kind]
      | _ => cases two
  | _ => cases one

end Value

/-! ## Operators -/

namespace Operator

variable {a b c : Value} {line : Int}

/-- Two values of one kind are always compared. -/
theorem binary_of_kind_eq (id : Nat) (same : a.kind = b.kind) :
    binary id "==" a b = .ok (.boolean (a.equal b)) ∧
      binary id "!=" a b = .ok (.boolean !a.equal b) := by
  cases a with
  | number x =>
      cases b with
      | number y =>
          rw [Value.equal_number]
          exact ⟨rfl, rfl⟩
      | _ => cases same
  -- Values other than numbers go by `same`, in whichever branch they are compared.
  | _ =>
      rw [← Value.same_eq_equal same (by simp [Value.kind])]
      cases b <;> first | exact ⟨rfl, rfl⟩ | cases same

theorem binary_of_kind_ne (id : Nat) (operator : String) (differ : a.kind ≠ b.kind) :
    binary id operator a b = .error (.mismatch a.kind operator b.kind) :=
  if_neg differ

/-- An operator between two values, run on a line as an operator node runs it on its operands. -/
def ask (line : Int) (operator : String) (a b : Value) : Eval Value := do
  Eval.settle line (binary (← Eval.fresh) operator a b)

/-- Asking gives a truth value, in every store. -/
def Answers (line : Int) (operator : String) (a b : Value) (answer : Bool) : Prop :=
  ∀ store, (ask line operator a b).Ends store (fun value _ => value = .boolean answer) fun _ => False

/-- Asking finds on its line that the two kinds do not go together, in every store. -/
def Mismatches (line : Int) (operator : String) (a b : Value) : Prop :=
  ∀ store, (ask line operator a b).Ends store
    (fun value _ => ∃ id, value = .error id line (.mismatch a.kind operator b.kind)) fun _ => False

/-- That is what an operator node does with ordinary operands. -/
theorem eval_binary {call : Call} {scope : Nat} {left right : Node} {store first second : Store}
    (operator : String) (leftRun : left.eval call scope store = .ok a first) (plain : a.isSignal = false)
    (rightRun : right.eval call scope first = .ok b second) (ordinary : b.isSignal = false) :
    (Node.binary line left operator right).eval call scope store = ask line operator a b second := by
  rw [Node.eval]
  simp only [Eval.andThen, bind, EStateM.bind, leftRun, rightRun, plain, ordinary, Bool.false_eq_true,
    if_false]
  rfl

theorem ends_ask {operator : String} {store : Store} {done : Value → Store → Prop} {cut : Store → Prop} :
    (ask line operator a b).Ends store done cut ↔
      (Eval.settle line (binary store.nextId operator a b)).Ends
        { store with nextId := store.nextId + 1 } done cut := by
  simp [ask]

theorem mismatches_of_kind_ne (operator : String) (differ : a.kind ≠ b.kind) :
    Mismatches line operator a b := by
  intro store
  rw [ends_ask, binary_of_kind_ne _ operator differ]
  exact ⟨_, rfl⟩

/-- An operator that compares values of one kind answers nothing else. -/
theorem answers_iff {operator : String} {given answer : Bool}
    (compares : a.kind = b.kind → ∀ id, binary id operator a b = .ok (.boolean given)) :
    Answers line operator a b answer ↔ a.kind = b.kind ∧ given = answer := by
  constructor
  · intro answers
    have ends := answers .empty
    rw [ends_ask] at ends
    by_cases same : a.kind = b.kind
    · rw [compares same] at ends
      exact ⟨same, Value.boolean.inj ends⟩
    · rw [binary_of_kind_ne _ operator same] at ends
      cases ends
  · rintro ⟨same, rfl⟩ store
    rw [ends_ask, compares same]
    rfl

theorem answers_equals {answer : Bool} :
    Answers line "==" a b answer ↔ a.kind = b.kind ∧ a.equal b = answer :=
  answers_iff fun same id => (binary_of_kind_eq id same).1

theorem answers_differs {answer : Bool} :
    Answers line "!=" a b answer ↔ a.kind = b.kind ∧ (!a.equal b) = answer :=
  answers_iff fun same id => (binary_of_kind_eq id same).2

end Operator

open Operator in
/-- Equality is coherent across operators and keys. An operator node asks about the values of its
operands. Two values of one kind are compared, and any others are a mismatch of kinds; the two operators
contradict each other whenever they answer, also about a not-a-number, which is equal to nothing; equality
is symmetric, transitive and, not-a-numbers apart, reflexive. The keys of values that are no not-a-numbers
are the same exactly if the values are of one kind and equal, and values of two kinds never share a key. -/
theorem equality_is_coherent :
    (∀ (line : Int) (a b : Value),
      (∀ call scope left operator right store first second,
        Node.eval call scope left store = .ok a first → a.isSignal = false →
        Node.eval call scope right first = .ok b second → b.isSignal = false →
        (Node.binary line left operator right).eval call scope store = ask line operator a b second) ∧
      ((∃ answer, Answers line "==" a b answer) ↔ a.kind = b.kind) ∧
      (a.kind ≠ b.kind → Mismatches line "==" a b ∧ Mismatches line "!=" a b) ∧
      (∀ answer, Answers line "!=" a b answer ↔ Answers line "==" a b !answer) ∧
      (∀ answer, Answers line "==" a b answer → Answers line "==" b a answer) ∧
      (Answers line "==" a a true ↔ a.isNaN = false) ∧
      (a.isNaN = true → a.kind = b.kind → Answers line "==" a b false) ∧
      ∀ c, Answers line "==" a b true → Answers line "==" b c true → Answers line "==" a c true) ∧
    ∀ (a b : Value) (k l : Key), a.key? = some k → b.key? = some l →
      (a.kind ≠ b.kind → k.same l = false) ∧
      (a.isNaN = false → b.isNaN = false → ∀ line,
        (k.same l = true ↔ a.kind = b.kind ∧ Answers line "==" a b true)) := by
  refine ⟨fun line a b => ⟨?_, ?_, ?_, ?_, ?_, ?_, ?_, ?_⟩, fun a b k l one two => ⟨?_, ?_⟩⟩
  · intro call scope left operator right store first second leftRun plain rightRun ordinary
    exact eval_binary operator leftRun plain rightRun ordinary
  · constructor
    · rintro ⟨answer, answers⟩
      exact (answers_equals.mp answers).1
    · exact fun same => ⟨_, answers_equals.mpr ⟨same, rfl⟩⟩
  · exact fun differ => ⟨mismatches_of_kind_ne "==" differ, mismatches_of_kind_ne "!=" differ⟩
  · intro answer
    rw [answers_differs, answers_equals, Bool.not_eq_eq_eq_not]
  · intro answer answers
    rw [answers_equals] at answers ⊢
    exact ⟨answers.1.symm, Value.equal_comm a b ▸ answers.2⟩
  · rw [answers_equals, Value.equal_self_iff]
    exact and_iff_right rfl
  · intro nan same
    exact answers_equals.mpr ⟨same, Value.equal_eq_false_of_isNaN nan b⟩
  · intro c first second
    rw [answers_equals] at first second ⊢
    exact ⟨first.1.trans second.1, Value.equal_trans first.2 second.2⟩
  · intro differ
    rw [← Bool.not_eq_true, Value.same_key_iff one two]
    exact fun same => differ same.1
  · intro number _ line
    rw [Value.same_key_iff one two, answers_equals]
    refine and_congr_right fun same => ?_
    constructor
    · rintro (equal | rfl)
      · exact ⟨same, equal⟩
      · exact ⟨rfl, Value.equal_self_iff.mpr number⟩
    · exact fun answers => .inl answers.2

open Operator in
/-- The two zeros are one key and equal, and so says the node that compares them; a zero and `false` are
neither. -/
theorem equality_is_coherent_zeros :
    (Key.number (.zero false)).same (.number (.zero true)) = true ∧
      Answers 1 "==" (.number (.zero false)) (.number (.zero true)) true ∧
      (Node.binary 1 (.number 1 (.zero false) "0") "==" (.number 1 (.zero true) "0")).eval (apply 0) 0
        .empty = ask 1 "==" (.number (.zero false)) (.number (.zero true)) .empty ∧
      (Key.number (.zero false)).same (.boolean false) = false ∧
      Mismatches 1 "==" (.number (.zero false)) (.boolean false) := by
  obtain ⟨operators, keys⟩ := equality_is_coherent
  have zeros : (Key.number (.zero false)).same (.number (.zero true)) = true := by rfl
  have apart : (Value.number (.zero false)).kind ≠ (Value.boolean false).kind := by decide
  refine ⟨zeros, ?_, ?_, ?_, ?_⟩
  · exact (((keys (.number (.zero false)) (.number (.zero true)) _ _ rfl rfl).2 rfl rfl 1).mp zeros).2
  · exact (operators 1 _ _).1 (apply 0) 0 _ "==" _ .empty .empty .empty rfl rfl rfl rfl
  · exact (keys (.number (.zero false)) (.boolean false) _ _ rfl rfl).1 apart
  · exact ((operators 1 _ _).2.2.1 apart).1

end Treewalk

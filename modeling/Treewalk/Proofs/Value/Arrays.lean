import Treewalk.Eval.Builtin
import Treewalk.Proofs.Number.Whole

/-!
# Arrays are lists

Items of arrays are reached in several ways: at a number by indexing, at the ends by `first` and `last`, by
taking items away with `rest` and adding some with `push`. All of them are one list of items read in one
way: a number reads the item whose place it is numerically equal to (`index_of_isInt`), and any other
number reads null. Lengths below `2⁵³` are exact numbers, so arithmetic on them finds the places that are
meant.
-/

namespace Treewalk

theorem bind_ok {ε α β : Type} (value : α) (next : α → Except ε β) :
    (Except.ok value >>= next) = next value := rfl

namespace Operator

variable {id : Nat} {items : List Value} {i : Number}

theorem binary_add (x y : Number) : binary id "+" (.number x) (.number y) = .ok (.number (x.add id y)) := rfl

theorem binary_sub (x y : Number) : binary id "-" (.number x) (.number y) = .ok (.number (x.sub id y)) := rfl

theorem binary_equals (x y : Number) :
    binary id "==" (.number x) (.number y) = .ok (.boolean (x.eq y)) := rfl

/-- A number that is a place reads the item there, if there is one. -/
theorem index_of_isInt {k : Nat} (place : i.IsInt k) :
    index (.array id items) (.number i) = .ok (items[k]?.getD .null) := by
  have notNegative : ¬(k : Int) < 0 := by omega
  simp only [index, Number.toInt?_eq_some_iff.mpr place, notNegative, if_false, Int.toNat_natCast]

/-- A number that is no place of an item reads null. -/
theorem index_of_not_isInt (noPlace : ∀ k : Nat, k < items.length → ¬i.IsInt k) :
    index (.array id items) (.number i) = .ok .null := by
  simp only [index]
  cases found : i.toInt? with
  | none => rfl
  | some k =>
      have integer : i.IsInt k := Number.toInt?_eq_some_iff.mp found
      by_cases negative : k < 0
      · simp only [negative, if_true]
      · have beyond : items.length ≤ k.toNat := by
          refine Nat.le_of_not_lt fun inside => noPlace k.toNat inside ?_
          rwa [Int.toNat_of_nonneg (Int.not_lt.mp negative)]
        simp only [negative, if_false, List.getElem?_eq_none beyond, Option.getD_none]

end Operator

namespace Builtin

variable (id other : Nat) (items : List Value)

theorem apply_len : apply id .len [.array other items] = .ok (.number (.ofNat items.length)) := rfl

theorem apply_first : apply id .first [.array other items] = .ok (items.head?.getD .null) := rfl

theorem apply_last : apply id .last [.array other items] = .ok (items.getLast?.getD .null) := rfl

theorem apply_rest (item : Value) : apply id .rest [.array other (item :: items)] = .ok (.array id items) :=
  rfl

theorem apply_push (item : Value) :
    apply id .push [.array other items, item] = .ok (.array id (items ++ [item])) := rfl

end Builtin

/-! ## Lengths -/

namespace Number

variable {n : Nat} {one : Number}

/-- One less than a length is the last place. -/
theorem isInt_ofNat_sub_one (isOne : one.IsInt 1) (positive : 0 < n) (small : n ≤ 2 ^ 53) (payload : Nat) :
    ((ofNat n).sub payload one).IsInt (n - 1 : Nat) := by
  have exact_ := (isInt_ofNat small).sub isOne (by omega) payload
  rwa [show (n : Int) - 1 = (n - 1 : Nat) by omega] at exact_

/-- One more than a place is the next. -/
theorem IsInt.add_one {i : Number} (place : i.IsInt n) (isOne : one.IsInt 1) (small : n < 2 ^ 53)
    (payload : Nat) : (i.add payload one).IsInt (n + 1 : Nat) :=
  place.add isOne (by omega) payload

end Number

open Operator in
/-- Arrays and the functions on them go by one list of items. A number reads the item at the place that it
is numerically equal to, so both zeros read the first one, and any other number reads null, none of them
failing; the length is exact, and the place behind the last item reads null. If there are items, `first` and
`last` are those at place 0 and at one less than the length, and `rest` has one item less, at places less
by one. An item that is pushed is the last of one item more, the others keep their places, and pushing and
taking the rest go together. With no items `first`, `last` and `rest` are null. -/
theorem arrays_agree_with_lists (items : List Value) (short : items.length < 2 ^ 53) (x : Value)
    (id p q r s : Nat) :
    let a := Value.array id items
    (∀ (k : Nat) (inside : k < items.length) (i : Number), i.IsInt k →
      index a (.number i) = .ok (items.get ⟨k, inside⟩)) ∧
    (∀ negative, (Number.zero negative).IsInt 0) ∧
    (∀ i : Number, (∀ k : Nat, k < items.length → ¬i.IsInt k) → index a (.number i) = .ok .null) ∧
    (∃ n : Number, n.IsInt items.length ∧ Builtin.apply p .len [a] = .ok (.number n) ∧
      index a (.number n) = .ok .null) ∧
    (0 < items.length →
      (∀ zero : Number, zero.IsInt 0 → Builtin.apply p .first [a] = index a (.number zero)) ∧
      (∀ one : Number, one.IsInt 1 →
        Builtin.apply p .last [a] =
          (do index a (← binary r "-" (← Builtin.apply q .len [a]) (.number one))) ∧
        (do
          let less ← Builtin.apply q .len [← Builtin.apply p .rest [a]]
          binary s "==" (← binary r "+" less (.number one)) (← Builtin.apply q .len [a])) =
            .ok (.boolean true) ∧
        ∀ k : Nat, k < 2 ^ 52 → ∀ i : Number, i.IsInt k →
          (do index (← Builtin.apply p .rest [a]) (.number i)) =
            (do index a (← binary q "+" (.number i) (.number one)))) ∧
      (do Builtin.apply q .rest [← Builtin.apply p .push [a, x]]) = .ok (.array q (items.tail ++ [x])) ∧
      (do Builtin.apply s .push [← Builtin.apply r .rest [a], x]) = .ok (.array s (items.tail ++ [x]))) ∧
    (∃ n : Number, n.IsInt (items.length + 1) ∧
      (do Builtin.apply q .len [← Builtin.apply p .push [a, x]]) = .ok (.number n)) ∧
    (do Builtin.apply q .last [← Builtin.apply p .push [a, x]]) = .ok x ∧
    (∀ k : Nat, k < items.length → ∀ i : Number, i.IsInt k →
      (do index (← Builtin.apply p .push [a, x]) (.number i)) = index a (.number i)) ∧
    (items.length = 0 →
      Builtin.apply p .first [a] = .ok .null ∧ Builtin.apply p .last [a] = .ok .null ∧
      Builtin.apply p .rest [a] = .ok .null) := by
  intro a
  have length := Number.isInt_ofNat (Nat.le_of_lt short)
  refine ⟨?_, Number.isInt_zero, ?_, ⟨_, length, rfl, ?_⟩, ?_, ?_, ?_, ?_, ?_⟩
  · intro k inside i place
    rw [index_of_isInt place, List.getElem?_eq_getElem inside]
    rfl
  · exact fun i noPlace => index_of_not_isInt noPlace
  · rw [index_of_isInt length, List.getElem?_eq_none (Nat.le_refl _)]
    rfl
  · intro positive
    refine ⟨?_, fun one isOne => ⟨?_, ?_, ?_⟩, ?_, ?_⟩
    · intro zero isZero
      have place : zero.IsInt (0 : Nat) := isZero
      rw [index_of_isInt place, Builtin.apply_first, List.head?_eq_getElem?]
    · have last := Number.isInt_ofNat_sub_one isOne positive (Nat.le_of_lt short) r
      rw [Builtin.apply_last, Builtin.apply_len, bind_ok, binary_sub, List.getLast?_eq_getElem?]
      exact ((bind_ok _ _).trans (index_of_isInt last)).symm
    · obtain ⟨item, others, rfl⟩ := List.exists_cons_of_length_pos positive
      have fewer : others.length < 2 ^ 53 := by
        rw [List.length_cons] at short
        omega
      have more := (Number.isInt_ofNat (Nat.le_of_lt fewer)).add_one isOne fewer r
      simp only [a, Builtin.apply_rest, Builtin.apply_len, binary_add, binary_equals, bind_ok]
      rw [more.eq length]
    · intro k low i place
      obtain ⟨item, others, rfl⟩ := List.exists_cons_of_length_pos positive
      have next := place.add_one isOne (by omega) q
      simp only [a, Builtin.apply_rest, binary_add, bind_ok]
      rw [index_of_isInt place, index_of_isInt next, List.getElem?_cons_succ]
    · obtain ⟨item, others, rfl⟩ := List.exists_cons_of_length_pos positive
      rfl
    · obtain ⟨item, others, rfl⟩ := List.exists_cons_of_length_pos positive
      rfl
  · refine ⟨.ofNat (items ++ [x]).length, ?_, rfl⟩
    rw [List.length_append, List.length_singleton]
    exact Number.isInt_ofNat short
  · have pushed : (do Builtin.apply q .last [← Builtin.apply p .push [a, x]]) =
        .ok ((items ++ [x]).getLast?.getD .null) := rfl
    rw [pushed, List.getLast?_concat]
    rfl
  · intro k inside i place
    have pushed : index (.array p (items ++ [x])) (.number i) = _ := index_of_isInt place
    rw [List.getElem?_append_left inside] at pushed
    exact pushed.trans (index_of_isInt place).symm
  · intro none
    obtain rfl := List.length_eq_zero_iff.mp none
    exact ⟨rfl, rfl, rfl⟩

open Operator in
/-- Of two items the first is read at the negative zero, none at an infinity, and the last at one less than
the length; a third is read behind them when it is pushed, and there is nothing to take from no items. -/
theorem arrays_agree_with_lists_pair :
    let a := Value.array 0 [.text "a", .text "b"]
    index a (.number (.zero true)) = .ok (.text "a") ∧
    index a (.number (.infinite false)) = .ok .null ∧
    Builtin.apply 1 .last [a] =
      (do index a (← binary 3 "-" (← Builtin.apply 2 .len [a]) (.number (.ofNat 1)))) ∧
    (do index (← Builtin.apply 1 .rest [a]) (.number (.ofNat 1))) =
      (do index a (← binary 2 "+" (.number (.ofNat 1)) (.number (.ofNat 1)))) ∧
    (do Builtin.apply 2 .last [← Builtin.apply 1 .push [a, .null]]) = .ok .null ∧
    Builtin.apply 1 .rest [.array 0 []] = .ok .null := by
  intro a
  obtain ⟨inside, zeros, outside, _, items, _, pushed, _, _⟩ :=
    arrays_agree_with_lists [.text "a", .text "b"] (by decide) .null 0 1 2 3 4
  obtain ⟨_, _, _, _, _, _, _, _, none⟩ := arrays_agree_with_lists [] (by decide) .null 0 1 2 3 4
  obtain ⟨_, ends, _, _⟩ := items (by decide)
  have one : (Number.ofNat 1).IsInt (1 : Nat) := Number.isInt_ofNat (by decide)
  refine ⟨inside 0 (by decide) _ (zeros true), outside _ ?_, (ends _ one).1, ?_, pushed, (none rfl).2.2⟩
  · rintro k - ⟨_, _, _, same, -⟩
    cases same
  · exact (ends _ one).2.2 1 (by decide) _ one

end Treewalk

import Treewalk.Number.Bits
import Treewalk.Proofs.Number.Printed
import Treewalk.Proofs.Reader.Joined
import Treewalk.Proofs.Session.Joined
import Treewalk.Proofs.Source.Longest

/-!
# Printed numbers are read back

The text of a number is a source. If the number is whole or not below a ten-thousandth, this source is one
numeral, behind a minus if the number is negative, and running it gives the number again
(`Session.eval_text`): the same bit pattern, but for the negative zero, which is printed without its sign.
-/

namespace Treewalk

/-! ## Bit patterns -/

namespace Number

/-- The fields of a pattern are found again from its count of quanta. -/
theorem fieldsOfCount_countOfFields (exponent : Nat) {fraction : Nat} (small : fraction < 2 ^ 52) :
    fieldsOfCount (countOfFields exponent fraction) = exponent * 2 ^ 52 + fraction := by
  unfold countOfFields
  split
  · rename_i subnormal
    have place := Quanta.place_mul (n := fraction) (e := 0) (by omega) (.inl rfl)
    rw [Nat.pow_zero, Nat.mul_one] at place
    rw [fieldsOfCount, place, subnormal, Nat.pow_zero, Nat.div_one]
  · rename_i normal
    have full : exponent - 1 = 0 ∨ 2 ^ 52 ≤ 2 ^ 52 + fraction := .inr (Nat.le_add_right _ _)
    have place := Quanta.place_mul (n := 2 ^ 52 + fraction) (by omega) full
    rw [fieldsOfCount, place, Nat.mul_div_cancel _ (Nat.two_pow_pos _)]
    omega

/-- The pattern of a finite number is found again. -/
theorem toBits?_ofBits {payload : Nat} {bits : UInt64} {negative : Bool} {count : Nat}
    {valid : Representable count} (finite : ofBits payload bits = .finite negative count valid) :
    (Number.finite negative count valid).toBits? = some bits := by
  have bound := bits.toNat_lt
  unfold ofBits at finite
  dsimp only at finite
  split at finite
  · obtain ⟨rfl, rfl⟩ := Number.finite.inj finite
    rw [toBits?, fieldsOfCount_countOfFields _ (Nat.mod_lt _ (Nat.two_pow_pos 52))]
    congr 1
    rw [← UInt64.toNat_inj, UInt64.toNat_ofNat']
    have sign : (bits.toNat / 2 ^ 63 % 2 == 1).toNat = bits.toNat / 2 ^ 63 := by
      have bit : bits.toNat / 2 ^ 63 = 0 ∨ bits.toNat / 2 ^ 63 = 1 := by omega
      rcases bit with zero | one
      · rw [zero]
        rfl
      · rw [one]
        rfl
    rw [sign]
    omega
  · split at finite <;> cases finite

/-- The pattern of the negative zero. -/
def negativeZero : UInt64 := 0x8000000000000000

theorem bits_eq_negativeZero_iff {payload : Nat} {bits : UInt64} {negative : Bool} {count : Nat}
    {valid : Representable count} (finite : ofBits payload bits = .finite negative count valid) :
    bits = negativeZero ↔ negative = true ∧ count = 0 := by
  constructor
  · rintro rfl
    have zero : ofBits payload negativeZero = .finite true 0 representable_zero := rfl
    obtain ⟨sign, quanta⟩ := Number.finite.inj (zero.symm.trans finite)
    exact ⟨sign.symm, quanta.symm⟩
  · rintro ⟨rfl, rfl⟩
    exact (Option.some.inj (toBits?_ofBits finite)).symm

/-- The sign of a zero does not count. -/
theorem signed_and_pos (negative : Bool) (count : Nat) :
    signed (negative && decide (0 < count)) count = signed negative count := by
  rcases Nat.eq_zero_or_pos count with rfl | some
  · cases negative <;> rfl
  · rw [decide_eq_true some, Bool.and_true]

theorem IsInt.whole {negative : Bool} {count : Nat} {valid : Representable count} {k : Int}
    (isInt : (Number.finite negative count valid).IsInt k) : Quanta.one ∣ count := by
  have found := toInt?_eq_some_iff.mpr isInt
  simp only [toInt?, Option.ite_none_right_eq_some] at found
  exact Nat.dvd_of_mod_eq_zero found.1

end Number

/-! ## Sources -/

namespace Text.Spells

variable {cs : List Char} {d : Decimal}

/-- A numeral is one lexeme. -/
theorem cut_eq (spells : Spells cs d) : ∃ c rest, cs = c :: rest ∧
    Lexeme.cut c rest = .ok (⟨.number, cs⟩, []) := by
  cases spells with
  | whole some digits =>
      obtain ⟨c, rest, rfl⟩ := List.exists_cons_of_ne_nil some
      have more : ∀ e ∈ rest, isDigit e := fun e member =>
        isDigit_of_ascii (digits e (List.mem_cons_of_mem c member))
      obtain ⟨took, left⟩ := Lexeme.takeWhile_of_all more
      have all : Lexeme.cutNumber rest = (rest, []) := by simp only [Lexeme.cutNumber, took, left]
      refine ⟨c, rest, rfl, ?_⟩
      rw [Lexeme.cut_number rest (isDigit_of_ascii (digits c List.mem_cons_self)), all]
  | @point whole fraction some someToo digits =>
      obtain ⟨c, whole, rfl⟩ := List.exists_cons_of_ne_nil some
      obtain ⟨f, fraction, rfl⟩ := List.exists_cons_of_ne_nil someToo
      have ascii : ∀ e ∈ c :: (whole ++ f :: fraction), isDigit e := fun e member =>
        isDigit_of_ascii (digits e member)
      have inside : ∀ e ∈ whole, isDigit e := fun e member =>
        ascii e (List.mem_cons_of_mem c (List.mem_append_left _ member))
      have behind : ∀ e ∈ f :: fraction, isDigit e := fun e member =>
        ascii e (List.mem_cons_of_mem c (List.mem_append_right _ member))
      have stop : ∀ e ∈ ('.' :: f :: fraction).head?, isDigit e = false := by
        rintro e ⟨⟩
        decide
      obtain ⟨took, left⟩ := Number.takeWhile_digits ('.' :: f :: fraction) inside stop
      obtain ⟨tookMore, leftMore⟩ := Lexeme.takeWhile_of_all fun e member =>
        behind e (List.mem_cons_of_mem f member)
      have all : Lexeme.cutNumber (whole ++ '.' :: f :: fraction) = (whole ++ '.' :: f :: fraction, []) := by
        simp only [Lexeme.cutNumber, took, left, if_pos (behind f List.mem_cons_self), tookMore, leftMore]
      refine ⟨c, whole ++ '.' :: f :: fraction, rfl, ?_⟩
      rw [Lexeme.cut_number _ (ascii c List.mem_cons_self), all]
      rfl

/-- The stream of a numeral is one token. -/
theorem ofChars_eq (spells : Spells cs d) (line : Int) :
    TokenStream.ofChars line cs = ⟨[⟨.number, String.ofList cs, line⟩], .eof line⟩ := by
  have lines : (⟨.number, cs⟩ : Lexeme).newlines = 0 := by
    refine List.count_eq_zero.mpr fun member => ?_
    rcases spells.mem member with digit | point
    · exact absurd digit (by decide)
    · exact absurd point (by decide)
  obtain ⟨c, rest, same, done⟩ := spells.cut_eq
  have stream := TokenStream.ofChars_cons line c rest
  rw [done, ← same] at stream
  simp only [Lexeme.token, lines] at stream
  rw [stream, Int.natCast_zero, Int.add_zero, TokenStream.ofChars_nil]
  rfl

end Text.Spells

theorem ofChars_minus (line : Int) (cs : List Char) : TokenStream.ofChars line ('-' :: cs) =
    (TokenStream.ofChars line cs).prepend [⟨.operator, "-", line⟩] := by
  have done : Lexeme.cut '-' cs = .ok (⟨.operator, ['-']⟩, cs) := rfl
  rw [TokenStream.ofChars_cons, done]
  simp [Lexeme.token, Lexeme.newlines]

/-- What a numeral, or a minus and a numeral, are read as. -/
theorem parse_withSign {cs : List Char} {d : Decimal} (spells : Text.Spells cs d) (negative : Bool) :
    parse (Number.withSign negative cs) = .ok (.program 1 [.expression 1
      (if negative then .unary 1 "-" (.number 1 (.ofDecimal false d) (String.ofList cs))
        else .number 1 (.ofDecimal false d) (String.ofList cs))]) := by
  have lexed := TokenStream.ofSource_eq_ofChars (Number.withSign negative cs)
  rw [Number.withSign, String.toList_ofList] at lexed
  cases negative with
  | false =>
      rw [if_neg Bool.false_ne_true, spells.ofChars_eq, ← List.nil_append [_]] at lexed
      exact parse_of_numeral lexed rfl rfl spells.ofText?_eq rfl
  | true =>
      rw [if_pos rfl, ofChars_minus, spells.ofChars_eq] at lexed
      exact parse_of_numeral lexed rfl rfl spells.ofText?_eq rfl

/-- Running the text of a number gives the number, but for the sign of a zero. -/
theorem Session.eval_text (session : Session) (depth : Nat) (negative : Bool) {count : Nat}
    (valid : Representable count)
    (plain : Quanta.one ∣ count ∨ (10 : ℚ) ^ Number.layout.least ≤ Quanta.value count) :
    ∃ after, session.eval depth (Number.finite negative count valid).text =
      (.value (.number (.finite (negative && decide (0 < count)) count valid)), after) := by
  obtain ⟨cs, d, text, spells, reads⟩ := Number.exists_spells_text negative valid plain
  have read := parse_withSign spells (negative && decide (0 < count))
  rw [Number.ofDecimal_eq false reads valid] at read
  rw [text, eval_program read]
  generalize (negative && decide (0 < count)) = minus
  cases minus with
  | false => exact ⟨_, rfl⟩
  | true => exact ⟨_, rfl⟩

/-- Printed numbers are read back. Take any pattern of a finite number that is whole or not below a
ten-thousandth. The number is printed without a power of ten, and running what is printed in a new session gives
a number that is equal to it and has the same pattern, the negative zero alone becoming the positive one. -/
theorem printed_numbers_read_back (payload depth : Nat) (bits : UInt64) {negative : Bool} {count : Nat}
    {valid : Representable count} (finite : Number.ofBits payload bits = .finite negative count valid)
    (plain : (∃ k, (Number.ofBits payload bits).IsInt k) ∨ 1 / 10 ^ 4 ≤ Quanta.value count) :
    (∀ c ∈ (Number.ofBits payload bits).text.toList, c.isDigit ∨ c = '.' ∨ c = '-') ∧
    ∃ y after, Session.new.eval depth (Number.ofBits payload bits).text = (.value (.number y), after) ∧
      y.eq (Number.ofBits payload bits) ∧
      y.toBits? = some (if bits = Number.negativeZero then 0 else bits) := by
  have power : (10 : ℚ) ^ Number.layout.least = 1 / 10 ^ 4 := by
    change (10 : ℚ) ^ (-4 : Int) = 1 / 10 ^ 4
    norm_num
  have pattern := Number.toBits?_ofBits finite
  have isZero := Number.bits_eq_negativeZero_iff finite
  rw [finite, ← power] at plain
  rw [finite]
  replace plain : Quanta.one ∣ count ∨ (10 : ℚ) ^ Number.layout.least ≤ Quanta.value count :=
    plain.imp_left fun integer => integer.choose_spec.whole
  refine ⟨fun c member => ?_, ?_⟩
  · obtain ⟨cs, d, text, spells, -⟩ := Number.exists_spells_text negative valid plain
    rw [text, Number.withSign, String.toList_ofList] at member
    split at member
    · rcases List.mem_cons.mp member with rfl | inside
      · exact .inr (.inr rfl)
      · exact (spells.mem inside).imp_right .inl
    · exact (spells.mem member).imp_right .inl
  · obtain ⟨after, done⟩ := Session.new.eval_text depth negative valid plain
    refine ⟨_, after, done, ?_, ?_⟩
    · exact Number.eq_iff.mpr ⟨_, congrArg some (Number.signed_and_pos negative count), rfl⟩
    · split
      · rename_i zero
        obtain ⟨rfl, rfl⟩ := isZero.mp zero
        rfl
      · rename_i other
        have sign : (negative && decide (0 < count)) = negative := by
          cases negative with
          | false => rfl
          | true => simpa using Nat.pos_of_ne_zero fun zero => other (isZero.mpr ⟨rfl, zero⟩)
        rw [sign]
        exact pattern

/-- The number nearest to a tenth is printed as one. -/
theorem printed_numbers_read_back_tenth : ∃ y after, Session.new.eval 0 "0.1" = (.value (.number y), after) ∧
    y.toBits? = some 0x3FB999999999999A := by
  have finite : Number.ofBits 0 0x3FB999999999999A =
      .finite false (Number.countOfFields 1019 0x999999999999A)
        (Number.representable_countOfFields (by decide) (by decide)) := by decide +kernel
  have scaled (count : Nat) (quanta : Quanta.one ≤ count * 10 ^ 4) : 1 / 10 ^ 4 ≤ Quanta.value count := by
    rw [Quanta.value, div_le_div_iff₀ (by norm_num) Quanta.cast_one_pos, one_mul]
    exact_mod_cast quanta
  have text : (Number.ofBits 0 0x3FB999999999999A).text = "0.1" := by decide +kernel
  obtain ⟨-, y, after, done, -, pattern⟩ :=
    printed_numbers_read_back 0 0 0x3FB999999999999A finite (.inr (scaled _ (by decide +kernel)))
  rw [text] at done
  exact ⟨y, after, done, pattern⟩

end Treewalk

import Mathlib
import Treewalk.Number.Decimal
import Treewalk.Source.Stream

/-!
# The tokens of a source

`Token.Lexical` tells which tokens a source can yield: keywords and operators from two fixed lists,
and number tokens that are numerals. `TokenStream.lexical_ofSource` shows that it yields no others.
-/

namespace Treewalk

/-! ## Numerals -/

namespace Text

theorem isDigit_iff {c : Char} : isDigit c ↔ ∃ z ∈ zeros, z ≤ c.toNat ∧ c.toNat < z + 10 := by
  simp [isDigit, digit?]

/-- No script has a digit among the blanks. -/
theorem isBlank_eq_false_of_isDigit {c : Char} (digit : isDigit c) : isBlank c = false := by
  obtain ⟨z, member, low, high⟩ := isDigit_iff.mp digit
  have apart : ∀ z ∈ zeros, 0x30 ≤ z ∧ (z + 10 ≤ 0x85 ∨ 0xA0 < z) ∧ (z + 10 ≤ 0x1680 ∨ 0x1680 < z) ∧
      (z + 10 ≤ 0x2000 ∨ 0x205F < z) ∧ (z + 10 ≤ 0x3000 ∨ 0x3000 < z) := by decide
  have gaps := apart z member
  simp only [isBlank, Bool.or_eq_false_iff, Bool.and_eq_false_iff, decide_eq_false_iff_not,
    beq_eq_false_iff_ne]
  omega

theorem isNumeralBlank_eq_false_of_isDigit {c : Char} (digit : isDigit c) :
    isNumeralBlank c = false := by
  simp [isNumeralBlank, isBlank_eq_false_of_isDigit digit]

theorem strip_eq_self {drop : Char → Bool} {cs : List Char} (kept : ∀ c ∈ cs, drop c = false) :
    strip drop cs = cs := by
  have same (ds : List Char) (all : ∀ c ∈ ds, drop c = false) : ds.dropWhile drop = ds := by
    cases ds with
    | nil => rfl
    | cons d ds => rw [List.dropWhile_cons_of_neg (by simp [all d List.mem_cons_self])]
  unfold strip
  rw [same cs kept, same cs.reverse (fun c member => kept c (List.mem_reverse.mp member)),
    List.reverse_reverse]

theorem underscoresJoin_of_not_mem {cs : List Char} (none : '_' ∉ cs) (afterDigit : Bool) :
    underscoresJoin afterDigit cs = true := by
  fun_induction underscoresJoin afterDigit cs with
  | case1 => rfl
  | case2 => exact absurd List.mem_cons_self none
  | case3 => exact absurd List.mem_cons_self none
  | case4 _ c cs _ _ ih => exact ih fun member => none (List.mem_cons_of_mem c member)

/-- Digits, and perhaps a point and more digits. -/
def IsNumeral (cs : List Char) : Prop :=
  ∃ whole fraction, cs = whole ++ fraction ∧ whole ≠ [] ∧ (∀ c ∈ whole, isDigit c) ∧
    (fraction = [] ∨ ∃ digits, fraction = '.' :: digits ∧ ∀ c ∈ digits, isDigit c)

theorem IsNumeral.mem {cs : List Char} (numeral : IsNumeral cs) {c : Char} (member : c ∈ cs) :
    isDigit c ∨ c = '.' := by
  obtain ⟨whole, fraction, rfl, -, digits, point⟩ := numeral
  rcases List.mem_append.mp member with inside | inside
  · exact .inl (digits c inside)
  rcases point with rfl | ⟨more, rfl, moreDigits⟩
  · cases inside
  rcases List.mem_cons.mp inside with rfl | inside
  · exact .inr rfl
  · exact .inl (moreDigits c inside)

theorem bareNumeral?_of_isNumeral {cs : List Char} (numeral : IsNumeral cs) :
    bareNumeral? (String.ofList cs) = some cs := by
  have nonblank : ∀ c ∈ cs, isNumeralBlank c = false := by
    intro c member
    rcases numeral.mem member with digit | rfl
    · exact isNumeralBlank_eq_false_of_isDigit digit
    · decide
  have joined : '_' ∉ cs := by
    intro member
    rcases numeral.mem member with digit | point
    · exact absurd digit (by decide)
    · exact absurd point (by decide)
  have kept : cs.filter (· ≠ '_') = cs := by
    rw [List.filter_eq_self]
    intro c member
    have other : c ≠ '_' := fun same => joined (same ▸ member)
    simpa using other
  simp only [bareNumeral?, String.toList_ofList]
  rw [strip_eq_self nonblank, if_pos (underscoresJoin_of_not_mem joined false), kept]

/-- A numeral has no sign of its own. -/
theorem splitSign_of_isNumeral {cs : List Char} (numeral : IsNumeral cs) : splitSign cs = (false, cs) := by
  obtain ⟨whole, fraction, rfl, nonempty, digits, -⟩ := numeral
  cases whole with
  | nil => exact absurd rfl nonempty
  | cons c whole =>
      have digit := digits c List.mem_cons_self
      unfold splitSign
      split
      · rename_i same
        cases same
        exact absurd digit (by decide)
      · rename_i same
        cases same
        exact absurd digit (by decide)
      · rfl

end Text

namespace Number

/-- A row of digits ends where none follows. -/
theorem takeWhile_digits {whole : List Char} (rest : List Char)
    (digits : ∀ c ∈ whole, Text.isDigit c) (stop : ∀ c ∈ rest.head?, Text.isDigit c = false) :
    (whole ++ rest).takeWhile Text.isDigit = whole ∧
      (whole ++ rest).dropWhile Text.isDigit = rest := by
  have none : rest.takeWhile Text.isDigit = [] ∧ rest.dropWhile Text.isDigit = rest := by
    cases rest with
    | nil => simp
    | cons c rest => simp [stop c rfl]
  rw [List.takeWhile_append_of_pos digits, List.dropWhile_append_of_pos digits, none.1, none.2]
  exact ⟨List.append_nil whole, rfl⟩

/-- A decimal whose digits all stand in its numeral is within reach. -/
theorem withinReach_eq {length : Nat} {d : Decimal} (low : -(length : Int) ≤ d.exponent)
    (high : d.exponent ≤ 0) : withinReach length d = d := by
  have same : max (-(length + decimalReach : Nat) : Int) (min d.exponent decimalReach) = d.exponent := by
    omega
  rw [withinReach, same]

theorem ofPlain?_eq (negative : Bool) {cs whole fraction : List Char}
    (took : cs.takeWhile Text.isDigit = whole)
    (left : splitFraction (cs.dropWhile Text.isDigit) = (fraction, [])) (nonempty : whole ≠ []) :
    ofPlain? negative cs =
      some (ofDecimal negative ⟨Text.digitsValue (whole ++ fraction), -fraction.length⟩) := by
  unfold ofPlain?
  simp only [took, left]
  rw [if_neg (List.append_ne_nil_of_left_ne_nil nonempty fraction), exponentOf?, Option.map_some, Int.zero_sub,
    withinReach_eq]
  · rw [List.length_append]
    dsimp only
    omega
  · dsimp only
    omega

/-- The number that a row of digits spells. -/
theorem ofPlain?_digits (negative : Bool) {whole : List Char} (nonempty : whole ≠ [])
    (digits : ∀ c ∈ whole, Text.isDigit c) :
    ofPlain? negative whole = some (ofDecimal negative ⟨Text.digitsValue whole, 0⟩) := by
  obtain ⟨took, left⟩ := takeWhile_digits [] digits (by simp)
  rw [List.append_nil] at took left
  rw [ofPlain?_eq negative took (by rw [left]; rfl) nonempty, List.append_nil]
  rfl

/-- The number that digits around a point spell. -/
theorem ofPlain?_point (negative : Bool) {whole fraction : List Char} (nonempty : whole ≠ [])
    (digits : ∀ c ∈ whole, Text.isDigit c) (more : ∀ c ∈ fraction, Text.isDigit c) :
    ofPlain? negative (whole ++ '.' :: fraction) =
      some (ofDecimal negative ⟨Text.digitsValue (whole ++ fraction), -fraction.length⟩) := by
  have stop : ∀ c ∈ ('.' :: fraction).head?, Text.isDigit c = false := by
    rintro c ⟨⟩
    decide
  obtain ⟨took, left⟩ := takeWhile_digits ('.' :: fraction) digits stop
  obtain ⟨tookMore, leftMore⟩ := takeWhile_digits [] more (by simp)
  rw [List.append_nil] at tookMore leftMore
  exact ofPlain?_eq negative took (by rw [left, splitFraction, tookMore, leftMore]) nonempty

/-- Every numeral has a value. -/
theorem isSome_ofText? {cs : List Char} (numeral : Text.IsNumeral cs) :
    (ofText? (String.ofList cs)).isSome := by
  unfold ofText?
  rw [Text.bareNumeral?_of_isNumeral numeral]
  simp only [Text.splitSign_of_isNumeral numeral]
  split
  · rfl
  split
  · rfl
  obtain ⟨whole, fraction, rfl, nonempty, digits, point⟩ := numeral
  rcases point with rfl | ⟨more, rfl, moreDigits⟩
  · rw [List.append_nil, ofPlain?_digits false nonempty digits]
    rfl
  · rw [ofPlain?_point false nonempty digits moreDigits]
    rfl

end Number

/-! ## Lexemes -/

namespace Lexeme

theorem isNumeral_cutNumber {c : Char} {cs : List Char} (digit : Text.isDigit c) :
    Text.IsNumeral (c :: (cutNumber cs).1) := by
  have digits : ∀ d ∈ c :: cs.takeWhile Text.isDigit, Text.isDigit d := by
    intro d member
    rcases List.mem_cons.mp member with rfl | inside
    · exact digit
    · exact List.all_eq_true.mp List.all_takeWhile _ inside
  unfold cutNumber
  dsimp only
  split
  · rename_i d more _
    split
    · rename_i first
      refine ⟨c :: cs.takeWhile Text.isDigit, '.' :: d :: more.takeWhile Text.isDigit, rfl, by simp,
        digits, .inr ⟨_, rfl, ?_⟩⟩
      intro e member
      rcases List.mem_cons.mp member with rfl | inside
      · exact first
      · exact List.all_eq_true.mp List.all_takeWhile _ inside
    · exact ⟨_, [], (List.append_nil _).symm, by simp, digits, .inl rfl⟩
  · exact ⟨_, [], (List.append_nil _).symm, by simp, digits, .inl rfl⟩

end Lexeme

/-- The operators of one character or two. -/
def operatorTexts : List String :=
  ["-", "+", "*", "/", "!", "<", ">", "=", ",", ";", ":", "(", ")", "\x7b", "\x7d", "[", "]",
   "==", "!=", "<=", ">="]

/-- A token as a source yields it, or the end of input. -/
def Token.Lexical (t : Token) : Prop :=
  match t.kind with
  | .number => (Number.ofText? t.text).isSome
  | .text | .name | .eof => True
  | .keyword => t.text ∈ keywords
  | .operator => t.text ∈ operatorTexts
  | .other _ => False

namespace Lexeme

/-- A lexeme of which a token can be made. -/
def Sound (lexeme : Lexeme) : Prop :=
  match lexeme.kind with
  | .number => Text.IsNumeral lexeme.chars
  | .operator => String.ofList lexeme.chars ∈ operatorTexts
  | _ => True

theorem mem_operatorTexts_of_takesEquals {c : Char} (double : takesEquals c) :
    String.ofList [c, '='] ∈ operatorTexts := by
  simp only [takesEquals, Bool.or_eq_true, decide_eq_true_eq] at double
  rcases double with ((rfl | rfl) | rfl) | rfl <;> decide

theorem mem_operatorTexts_of_isOperator {c : Char} (single : isOperator c) :
    String.ofList [c] ∈ operatorTexts := by
  simp only [isOperator, List.mem_cons, List.not_mem_nil, or_false, decide_eq_true_eq] at single
  rcases single with rfl | rfl | rfl | rfl | rfl | rfl | rfl | rfl | rfl | rfl | rfl | rfl | rfl | rfl |
    rfl | rfl | rfl <;> decide

theorem sound_of_cut {c : Char} {cs rest : List Char} {lexeme : Lexeme}
    (done : cut c cs = .ok (lexeme, rest)) : lexeme.Sound := by
  unfold cut at done
  split at done
  · cases done
    trivial
  split at done
  · cases done
    trivial
  split at done
  · cases done
    trivial
  split at done
  · rename_i digit
    cases done
    exact isNumeral_cutNumber digit
  split at done
  · split at done
    · cases done
      trivial
    · cases done
  split at done
  · cases done
    trivial
  split at done
  · rename_i double
    cases done
    exact mem_operatorTexts_of_takesEquals double.1
  split at done
  · rename_i single
    cases done
    exact mem_operatorTexts_of_isOperator single
  · cases done

/-- Every lexeme of a source was cut from it. -/
theorem exists_cut_of_mem_cutAll {cs : List Char} {lexeme : Lexeme} (member : lexeme ∈ (cutAll cs).1) :
    ∃ c ds rest, cut c ds = .ok (lexeme, rest) := by
  fun_induction cutAll cs with
  | case1 => cases member
  | case2 => cases member
  | case3 c cs first rest done _ more fault split ih =>
      rcases List.mem_cons.mp member with rfl | inside
      · exact ⟨c, cs, rest, done⟩
      · rw [split] at ih
        exact ih inside

/-- The token of a lexeme is one of a source. -/
theorem lexical_token (line : Int) {lexeme : Lexeme} {t : Token} (sound : lexeme.Sound)
    (made : lexeme.token line = .ok (some t)) : t.Lexical ∧ t.kind ≠ .eof := by
  unfold Sound at sound
  unfold token at made
  cases kind : lexeme.kind with
  | newline | blank | comment =>
      simp only [kind] at made
      cases made
  | number =>
      simp only [kind] at made sound
      cases made
      exact ⟨Number.isSome_ofText? sound, by simp⟩
  | text =>
      simp only [kind] at made
      cases decoded : decode (lexeme.chars.drop 1).dropLast with
      | error fault =>
          rw [decoded] at made
          cases made
      | ok value =>
          rw [decoded] at made
          cases made
          exact ⟨trivial, by simp⟩
  | name =>
      simp only [kind] at made
      cases made
      by_cases keyword : String.ofList lexeme.chars ∈ Token.keywords
      · simp [Token.Lexical, keyword]
      · simp [Token.Lexical, keyword]
  | operator =>
      simp only [kind] at made sound
      cases made
      exact ⟨sound, by simp⟩

end Lexeme

namespace TokenStream

theorem exists_lexeme_of_mem_ofLexemes {line : Int} {lexemes : List Lexeme} {fault : Option ReadFault}
    {t : Token} (member : t ∈ (ofLexemes line lexemes fault).tokens) :
    ∃ lexeme ∈ lexemes, ∃ start, lexeme.token start = .ok (some t) := by
  fun_induction ofLexemes line lexemes fault with
  | case1 => cases member
  | case2 => cases member
  | case3 => cases member
  | case4 line lexeme more fault token? made stream ih =>
      rcases List.mem_append.mp member with here | later
      · rw [Option.mem_toList.mp here] at made
        exact ⟨lexeme, List.mem_cons_self, line, made⟩
      · obtain ⟨other, inside, found⟩ := ih later
        exact ⟨other, List.mem_cons_of_mem lexeme inside, found⟩

/-- Every token of a source comes from a lexeme that was cut from it. -/
theorem exists_cut_of_mem_ofSource {source : String} {t : Token}
    (member : t ∈ (ofSource source).tokens) : ∃ lexeme line c cs rest,
      Lexeme.cut c cs = .ok (lexeme, rest) ∧ lexeme.token line = .ok (some t) := by
  obtain ⟨lexeme, inside, line, made⟩ := exists_lexeme_of_mem_ofLexemes member
  obtain ⟨c, cs, rest, done⟩ := Lexeme.exists_cut_of_mem_cutAll inside
  exact ⟨lexeme, line, c, cs, rest, done, made⟩

/-- A source yields tokens of the two lists and numerals, texts and names only. -/
theorem lexical_ofSource (source : String) :
    ∀ t ∈ (ofSource source).tokens, t.Lexical ∧ t.kind ≠ .eof := by
  intro t member
  obtain ⟨lexeme, line, c, cs, rest, done, made⟩ := exists_cut_of_mem_ofSource member
  exact Lexeme.lexical_token line (Lexeme.sound_of_cut done) made

end TokenStream

end Treewalk

import Treewalk.Proofs.Source.Tokens

/-!
# Maximal munch

`LexemeClass.Matches` tells which texts belong to a class, one class at a time and without looking at
how they are found. A lexeme is the longest piece at the head of the source that belongs to any class
(`Lexeme.Longest`): the classes are tried in a fixed order, but no later one could have taken more. Where
nothing is cut, no class has a piece there.
-/

namespace Treewalk

/-! ## Classes of texts -/

/-- A row of at least one decimal digit. -/
def Text.Digits (cs : List Char) : Prop := cs ≠ [] ∧ ∀ c ∈ cs, isDigit c

/-- What may stand between two quotes: a backslash goes with the character behind it, whatever that is,
and any other character is no quote. -/
inductive Text.Inside : List Char → Prop
  | nil : Inside []
  | plain {c : Char} {cs : List Char} : c ≠ '"' → c ≠ '\\' → Inside cs → Inside (c :: cs)
  | escape {c : Char} {cs : List Char} : Inside cs → Inside ('\\' :: c :: cs)

/-- The texts of a class. -/
def LexemeClass.Matches : LexemeClass → List Char → Prop
  | .newline, cs => cs = ['\n']
  | .blank, cs => cs ≠ [] ∧ ∀ c ∈ cs, Lexeme.isSpace c
  | .comment, cs => ∃ body, cs = '/' :: '/' :: body ∧ '\n' ∉ body
  | .number, cs => ∃ whole, Text.Digits whole ∧
      (cs = whole ∨ ∃ fraction, Text.Digits fraction ∧ cs = whole ++ '.' :: fraction)
  | .text, cs => ∃ inside, Text.Inside inside ∧ cs = '"' :: (inside ++ ['"'])
  | .name, cs => ∃ c more, cs = c :: more ∧ Lexeme.isNameStart c ∧ ∀ d ∈ more, Lexeme.isNameChar d
  | .operator, cs => String.ofList cs ∈ operatorTexts

namespace Lexeme

/-- A lexeme that stands at the head of `cs`, and nothing longer there belongs to any class. -/
structure Longest (lexeme : Lexeme) (cs : List Char) : Prop where
  starts : lexeme.chars <+: cs
  belongs : lexeme.kind.Matches lexeme.chars
  longest : ∀ (kind : LexemeClass) (chars : List Char), kind.Matches chars → chars <+: cs →
    chars.length ≤ lexeme.chars.length

/-! ## What is cut by its first character -/

section Classes

variable {c : Char} (cs : List Char)

theorem isSpace_iff : isSpace c ↔ c = ' ' ∨ c = '\t' ∨ c = '\r' ∨ c = '\x0c' := by
  simp [isSpace, or_assoc]

theorem cut_blank (space : isSpace c) :
    cut c cs = .ok (⟨.blank, c :: cs.takeWhile isSpace⟩, cs.dropWhile isSpace) := by
  have newline : c ≠ '\n' := by
    rintro rfl
    exact absurd space (by decide)
  rw [cut, if_neg newline, if_pos space]

theorem cut_comment :
    cut '/' ('/' :: cs) = .ok (⟨.comment, '/' :: ('/' :: cs).takeWhile (· ≠ '\n')⟩,
      ('/' :: cs).dropWhile (· ≠ '\n')) := by
  rw [cut, if_neg (by decide), if_neg (by decide), if_pos ⟨rfl, rfl⟩]

/-- A digit begins no layout. -/
theorem cut_number (digit : Text.isDigit c) :
    cut c cs = .ok (⟨.number, c :: (cutNumber cs).1⟩, (cutNumber cs).2) := by
  have newline : c ≠ '\n' := by
    rintro rfl
    exact absurd digit (by decide)
  have space : ¬ isSpace c := by
    intro space
    rcases isSpace_iff.mp space with rfl | rfl | rfl | rfl <;> exact absurd digit (by decide)
  have comment : ¬ (c = '/' ∧ cs.head? = some '/') := by
    rintro ⟨rfl, -⟩
    exact absurd digit (by decide)
  rw [cut, if_neg newline, if_neg space, if_neg comment, if_pos digit]

/-- The digits of ASCII stand before its letters, and all others behind them. -/
theorem isDigit_eq_false_of_isNameStart (start : isNameStart c) : Text.isDigit c = false := by
  have letter : c.toNat = 0x5F ∨ 0x41 ≤ c.toNat ∧ c.toNat ≤ 0x7A := by
    simp only [isNameStart, Char.isAlpha, Char.isUpper, Char.isLower, Bool.or_eq_true, Bool.and_eq_true,
      decide_eq_true_eq, UInt32.le_iff_toNat_le, ge_iff_le] at start
    rcases start with (upper | lower) | rfl
    · exact .inr ⟨upper.1, upper.2.trans (by decide)⟩
    · exact .inr ⟨le_trans (by decide) lower.1, lower.2⟩
    · exact .inl rfl
  by_contra digit
  obtain ⟨z, member, low, high⟩ := Text.isDigit_iff.mp (by simpa using digit)
  have apart : ∀ z ∈ Text.zeros, z = 0x30 ∨ 0x80 ≤ z := by decide
  have gap := apart z member
  omega

theorem cut_name (start : isNameStart c) :
    cut c cs = .ok (⟨.name, c :: cs.takeWhile isNameChar⟩, cs.dropWhile isNameChar) := by
  have newline : c ≠ '\n' := by
    rintro rfl
    exact absurd start (by decide)
  have space : ¬ isSpace c := by
    intro space
    rcases isSpace_iff.mp space with rfl | rfl | rfl | rfl <;> exact absurd start (by decide)
  have comment : ¬ (c = '/' ∧ cs.head? = some '/') := by
    rintro ⟨rfl, -⟩
    exact absurd start (by decide)
  have digit : ¬ Text.isDigit c := by simp [isDigit_eq_false_of_isNameStart start]
  have quote : c ≠ '"' := by
    rintro rfl
    exact absurd start (by decide)
  rw [cut, if_neg newline, if_neg space, if_neg comment, if_neg digit, if_neg quote, if_pos start]

theorem cut_text {inside rest : List Char} (closed : cutText cs = some (inside, rest)) :
    cut '"' cs = .ok (⟨.text, '"' :: (inside ++ ['"'])⟩, rest) := by
  rw [cut, if_neg (by decide), if_neg (by decide), if_neg (by simp), if_neg (by decide), if_pos rfl,
    closed]

theorem cut_double (double : takesEquals c) :
    cut c ('=' :: cs) = .ok (⟨.operator, [c, '=']⟩, cs) := by
  simp only [takesEquals, Bool.or_eq_true, decide_eq_true_eq] at double
  rcases double with ((rfl | rfl) | rfl) | rfl <;> rfl

/-- Something is cut wherever an operator stands; with a second slash it is a comment. -/
theorem exists_cut_of_isOperator (operator : isOperator c) :
    ∃ lexeme rest, cut c cs = .ok (lexeme, rest) := by
  have quote : c ≠ '"' := by
    rintro rfl
    exact absurd operator (by decide)
  unfold cut
  split_ifs <;> exact ⟨_, _, rfl⟩

end Classes

/-! ## What is cut belongs to its class -/

theorem digits_takeWhile {c : Char} (cs : List Char) (digit : Text.isDigit c) :
    Text.Digits (c :: cs.takeWhile Text.isDigit) := by
  refine ⟨by simp, ?_⟩
  intro d member
  rcases List.mem_cons.mp member with rfl | inside
  · exact digit
  · exact List.all_eq_true.mp List.all_takeWhile d inside

theorem matches_cutNumber {c : Char} (cs : List Char) (digit : Text.isDigit c) :
    LexemeClass.number.Matches (c :: (cutNumber cs).1) := by
  have whole := digits_takeWhile cs digit
  unfold cutNumber
  dsimp only
  split
  case h_1 d more _ =>
    split
    case isTrue first => exact ⟨_, whole, .inr ⟨_, digits_takeWhile more first, rfl⟩⟩
    case isFalse => exact ⟨_, whole, .inl rfl⟩
  case h_2 => exact ⟨_, whole, .inl rfl⟩

theorem inside_of_cutText {cs inside rest : List Char} (closed : cutText cs = some (inside, rest)) :
    Text.Inside inside := by
  fun_induction cutText cs generalizing inside rest with
  | case1 => cases closed
  | case2 cs =>
      cases closed
      exact .nil
  | case3 c cs ih =>
      obtain ⟨⟨body, after⟩, found, same⟩ := Option.map_eq_some_iff.mp closed
      cases same
      exact .escape (ih found)
  | case4 c cs quote escape ih =>
      obtain ⟨⟨body, after⟩, found, same⟩ := Option.map_eq_some_iff.mp closed
      cases same
      refine .plain quote ?_ (ih found)
      -- A backslash at the very end would have been taken by this case, but then nothing is closed.
      rintro rfl
      cases cs with
      | nil => cases found
      | cons d ds => exact escape d ds rfl rfl

theorem matches_of_cut {c : Char} {cs rest : List Char} {lexeme : Lexeme}
    (done : cut c cs = .ok (lexeme, rest)) : lexeme.kind.Matches lexeme.chars := by
  unfold cut at done
  split at done
  · rename_i newline
    cases done
    exact congrArg (fun c => [c]) newline
  split at done
  · rename_i space
    cases done
    refine ⟨by simp, ?_⟩
    intro d member
    rcases List.mem_cons.mp member with rfl | inside
    · exact space
    · exact List.all_eq_true.mp List.all_takeWhile d inside
  split at done
  · rename_i slashes
    obtain ⟨rfl, second⟩ := slashes
    cases done
    cases cs with
    | nil => cases second
    | cons d ds =>
        cases second
        refine ⟨ds.takeWhile (· ≠ '\n'), by simp, ?_⟩
        intro member
        simpa using List.all_eq_true.mp List.all_takeWhile _ member
  split at done
  · rename_i digit
    cases done
    exact matches_cutNumber cs digit
  split at done
  · rename_i quote
    subst quote
    split at done
    case h_1 closed =>
      cases done
      exact ⟨_, inside_of_cutText closed, rfl⟩
    case h_2 => cases done
  split at done
  · rename_i start
    cases done
    exact ⟨c, _, rfl, start, fun d member => List.all_eq_true.mp List.all_takeWhile d member⟩
  split at done
  · rename_i double
    cases done
    exact mem_operatorTexts_of_takesEquals double.1
  split at done
  · rename_i single
    cases done
    exact mem_operatorTexts_of_isOperator single
  · cases done

/-! ## Nothing longer belongs to a class -/

theorem length_le_takeWhile {p : Char → Bool} {piece cs : List Char} (all : ∀ c ∈ piece, p c)
    (starts : piece <+: cs) : piece.length ≤ (cs.takeWhile p).length := by
  obtain ⟨rest, rfl⟩ := starts
  rw [List.takeWhile_append_of_pos all, List.length_append]
  exact Nat.le_add_right _ _

theorem length_takeWhile_le_cutNumber (cs : List Char) :
    (cs.takeWhile Text.isDigit).length ≤ (cutNumber cs).1.length := by
  unfold cutNumber
  dsimp only
  split
  · split
    · simp
    · exact le_rfl
  · exact le_rfl

/-- Digits, a point and digits are all taken. -/
theorem length_fraction_le_cutNumber {whole fraction cs : List Char}
    (digits : ∀ c ∈ whole, Text.isDigit c) (more : Text.Digits fraction)
    (starts : whole ++ '.' :: fraction <+: cs) :
    (whole ++ '.' :: fraction).length ≤ (cutNumber cs).1.length := by
  obtain ⟨rest, rfl⟩ := starts
  obtain ⟨nonempty, all⟩ := more
  obtain ⟨d, ds, rfl⟩ := List.exists_cons_of_ne_nil nonempty
  have first : Text.isDigit d := all d List.mem_cons_self
  have others : ∀ c ∈ ds, Text.isDigit c := fun c member => all c (List.mem_cons_of_mem d member)
  have took : (whole ++ '.' :: d :: ds ++ rest).takeWhile Text.isDigit = whole ∧
      (whole ++ '.' :: d :: ds ++ rest).dropWhile Text.isDigit = '.' :: d :: (ds ++ rest) := by
    rw [List.append_assoc]
    refine Number.takeWhile_digits _ digits ?_
    rintro c ⟨⟩
    decide
  unfold cutNumber
  simp only [took, first, if_true, List.length_append, List.length_cons]
  have tail := length_le_takeWhile others (List.prefix_append ds rest)
  omega

/-- A closed text is found: no quote inside it ends it early. -/
theorem cutText_of_inside {inside : List Char} (is : Text.Inside inside) (rest : List Char) :
    cutText (inside ++ '"' :: rest) = some (inside, rest) := by
  induction is with
  | nil => rfl
  | @plain c cs quote escape _ ih =>
      rw [List.cons_append, cutText, ih]
      · rfl
      · exact quote
      · exact fun _ _ same => absurd same escape
  | escape _ ih => simp [cutText, ih]

/-- An operator has one character, or two of which the second is an equals sign. -/
theorem operator_cases {cs : List Char} (belongs : LexemeClass.operator.Matches cs) :
    (∃ c, isOperator c ∧ cs = [c]) ∨ ∃ c, takesEquals c ∧ cs = [c, '='] := by
  have spelled : cs ∈ operatorTexts.map String.toList := by
    simpa using List.mem_map_of_mem (f := String.toList) belongs
  have forms : ∀ text ∈ operatorTexts.map String.toList,
      text ∈ (['-', '+', '*', '/', '!', '<', '>', '=', ',', ';', ':', '(', ')', '\x7b', '\x7d', '[', ']'].map
        fun c => [c]) ++ ['=', '!', '<', '>'].map fun c => [c, '='] := by
    decide
  rcases List.mem_append.mp (forms cs spelled) with single | double
  · obtain ⟨c, member, rfl⟩ := List.mem_map.mp single
    exact .inl ⟨c, decide_eq_true member, rfl⟩
  · obtain ⟨c, member, rfl⟩ := List.mem_map.mp double
    exact .inr ⟨c, by simpa [takesEquals, or_assoc] using member, rfl⟩

/-- Where a text of some class stands, a lexeme at least as long is cut. -/
theorem exists_cut_of_matches {kind : LexemeClass} {chars : List Char} {c : Char} {cs : List Char}
    (belongs : kind.Matches chars) (starts : chars <+: c :: cs) :
    ∃ lexeme rest, cut c cs = .ok (lexeme, rest) ∧ chars.length ≤ lexeme.chars.length := by
  cases kind with
  | newline =>
      cases belongs
      obtain rfl := (List.cons_prefix_cons.mp starts).1
      exact ⟨_, _, rfl, le_rfl⟩
  | blank =>
      obtain ⟨nonempty, all⟩ := belongs
      obtain ⟨d, more, rfl⟩ := List.exists_cons_of_ne_nil nonempty
      obtain ⟨rfl, tail⟩ := List.cons_prefix_cons.mp starts
      have others : ∀ c ∈ more, isSpace c := fun c member => all c (List.mem_cons_of_mem d member)
      refine ⟨_, _, cut_blank cs (all d List.mem_cons_self), ?_⟩
      exact Nat.succ_le_succ (length_le_takeWhile others tail)
  | comment =>
      obtain ⟨body, rfl, oneLine⟩ := belongs
      obtain ⟨rfl, tail⟩ := List.cons_prefix_cons.mp starts
      obtain ⟨rest, rfl⟩ := tail
      have others : ∀ c ∈ '/' :: body, decide (c ≠ '\n') := by
        intro c member
        rcases List.mem_cons.mp member with rfl | inside
        · decide
        · exact decide_eq_true fun same => oneLine (same ▸ inside)
      refine ⟨_, _, cut_comment (body ++ rest), ?_⟩
      exact Nat.succ_le_succ (length_le_takeWhile others (List.prefix_append _ rest))
  | number =>
      obtain ⟨whole, ⟨nonempty, all⟩, form⟩ := belongs
      obtain ⟨d, more, rfl⟩ := List.exists_cons_of_ne_nil nonempty
      have digit : Text.isDigit d := all d List.mem_cons_self
      have others : ∀ c ∈ more, Text.isDigit c := fun c member => all c (List.mem_cons_of_mem d member)
      rcases form with rfl | ⟨fraction, digits, rfl⟩
      · obtain ⟨rfl, tail⟩ := List.cons_prefix_cons.mp starts
        refine ⟨_, _, cut_number cs digit, Nat.succ_le_succ ?_⟩
        exact (length_le_takeWhile others tail).trans (length_takeWhile_le_cutNumber cs)
      · obtain ⟨rfl, tail⟩ := List.cons_prefix_cons.mp starts
        refine ⟨_, _, cut_number cs digit, Nat.succ_le_succ ?_⟩
        exact length_fraction_le_cutNumber others digits tail
  | text =>
      obtain ⟨inside, is, rfl⟩ := belongs
      obtain ⟨rfl, rest, rfl⟩ := List.cons_prefix_cons.mp starts
      have closed : cutText (inside ++ ['"'] ++ rest) = some (inside, rest) := by
        rw [List.append_assoc]
        exact cutText_of_inside is rest
      exact ⟨_, _, cut_text _ closed, le_rfl⟩
  | name =>
      obtain ⟨d, more, rfl, start, others⟩ := belongs
      obtain ⟨rfl, tail⟩ := List.cons_prefix_cons.mp starts
      exact ⟨_, _, cut_name cs start, Nat.succ_le_succ (length_le_takeWhile others tail)⟩
  | operator =>
      rcases operator_cases belongs with ⟨d, operator, rfl⟩ | ⟨d, double, rfl⟩
      · obtain ⟨rfl, -⟩ := List.cons_prefix_cons.mp starts
        obtain ⟨lexeme, rest, done⟩ := exists_cut_of_isOperator cs operator
        exact ⟨lexeme, rest, done, List.length_pos_iff.mpr (cut_ne_nil done)⟩
      · obtain ⟨rfl, rest, rfl⟩ := List.cons_prefix_cons.mp starts
        exact ⟨_, _, cut_double rest double, le_rfl⟩

/-- A cut is maximal munch. -/
theorem longest_of_cut {c : Char} {cs rest : List Char} {lexeme : Lexeme}
    (done : cut c cs = .ok (lexeme, rest)) : lexeme.Longest (c :: cs) where
  starts := ⟨rest, cut_append done⟩
  belongs := matches_of_cut done
  longest kind chars belongs starts := by
    obtain ⟨other, left, cutOther, longer⟩ := exists_cut_of_matches belongs starts
    rw [done] at cutOther
    cases cutOther
    exact longer

end Lexeme

end Treewalk

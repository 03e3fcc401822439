import Treewalk.Proofs.Source.Tokens

/-!
# Texts of integers

`Text.IsInteger` is the grammar of whole numerals: a row of digits of any script, in which a single
underscore may stand between two digits, with a sign in front of it or none and with blanks around it.
`Text.integer?` gives a value for these texts and no others (`integer?_eq_some_iff`).
-/

namespace Treewalk.Text

/-- Digits, with a single underscore between two of them where one is wanted. -/
inductive DigitRow : List Char → Prop where
  | last {c : Char} : isDigit c → DigitRow [c]
  | next {c : Char} {cs : List Char} : isDigit c → DigitRow cs → DigitRow (c :: cs)
  | join {c : Char} {cs : List Char} : isDigit c → DigitRow cs → DigitRow (c :: '_' :: cs)

/-- What may stand in front of digits, and whether it makes their number negative. -/
inductive IsSign : List Char → Bool → Prop where
  | none : IsSign [] false
  | plus : IsSign ['+'] false
  | minus : IsSign ['-'] true

/-- A text spells an integer. -/
def IsInteger (s : String) (value : Int) : Prop :=
  ∃ (lead sign row trail : List Char) (negative : Bool),
    s.toList = lead ++ (sign ++ row) ++ trail ∧
    (∀ c ∈ lead, isNumeralBlank c) ∧ (∀ c ∈ trail, isNumeralBlank c) ∧
    IsSign sign negative ∧ DigitRow row ∧ row.countP isDigit ≤ mostDigits ∧
    value = if negative then -(digitsValue row : Int) else digitsValue row

/-! ## Stripping -/

section Strip

variable {drop : Char → Bool} {lead body trail : List Char}

/-- What is stripped off at either end is of the class. -/
theorem exists_strip (drop : Char → Bool) (cs : List Char) :
    ∃ lead trail, cs = lead ++ strip drop cs ++ trail ∧ (∀ c ∈ lead, drop c) ∧ ∀ c ∈ trail, drop c := by
  have front := List.takeWhile_append_dropWhile (p := drop) (l := cs)
  have back := List.takeWhile_append_dropWhile (p := drop) (l := (cs.dropWhile drop).reverse)
  refine ⟨cs.takeWhile drop, ((cs.dropWhile drop).reverse.takeWhile drop).reverse, ?_, ?_, ?_⟩
  · have rest := congrArg List.reverse back
    rw [List.reverse_append, List.reverse_reverse] at rest
    rw [strip, List.append_assoc, rest, front]
  · exact fun c member => List.all_eq_true.mp List.all_takeWhile c member
  · exact fun c member => List.all_eq_true.mp List.all_takeWhile c (List.mem_reverse.mp member)

/-- What stands between the outermost characters that are not of the class is kept. -/
theorem strip_append (leads : ∀ c ∈ lead, drop c) (trails : ∀ c ∈ trail, drop c)
    (first : ∀ c ∈ body.head?, drop c = false) (last : ∀ c ∈ body.getLast?, drop c = false)
    (nonempty : body ≠ []) : strip drop (lead ++ body ++ trail) = body := by
  have stays (cs more : List Char) (kept : ∀ c ∈ cs.head?, drop c = false) (some : cs ≠ []) :
      (cs ++ more).dropWhile drop = cs ++ more := by
    cases cs with
    | nil => exact absurd rfl some
    | cons c cs => exact List.dropWhile_cons_of_neg (by simp [kept c rfl])
  have front : (lead ++ body ++ trail).dropWhile drop = body ++ trail := by
    rw [List.append_assoc, List.dropWhile_append_of_pos leads, stays body trail first nonempty]
  have back : (body ++ trail).reverse.dropWhile drop = body.reverse := by
    have others : ∀ c ∈ trail.reverse, drop c := fun c member => trails c (List.mem_reverse.mp member)
    have kept := stays body.reverse [] (by rwa [List.head?_reverse]) (by simpa using nonempty)
    rw [List.append_nil] at kept
    rw [List.reverse_append, List.dropWhile_append_of_pos others, kept]
  rw [strip, front, back, List.reverse_reverse]

theorem strip_eq_nil_iff {cs : List Char} : strip drop cs = [] ↔ ∀ c ∈ cs, drop c := by
  constructor
  · intro nothing
    obtain ⟨lead, trail, whole, leads, trails⟩ := exists_strip drop cs
    rw [nothing, List.append_nil] at whole
    rw [whole]
    intro c member
    exact (List.mem_append.mp member).elim (leads c) (trails c)
  · intro all
    simp [strip, List.dropWhile_eq_nil_iff.mpr all]

end Strip

/-! ## Rows of digits -/

namespace DigitRow

variable {row : List Char}

theorem mem (digits : DigitRow row) : ∀ c ∈ row, isDigit c ∨ c = '_' := by
  induction digits with
  | last digit =>
      intro c member
      exact .inl (List.mem_singleton.mp member ▸ digit)
  | next digit _ ih =>
      intro c member
      rcases List.mem_cons.mp member with rfl | inside
      · exact .inl digit
      · exact ih c inside
  | join digit _ ih =>
      intro c member
      rcases List.mem_cons.mp member with rfl | inside
      · exact .inl digit
      · rcases List.mem_cons.mp inside with rfl | inside
        · exact .inr rfl
        · exact ih c inside

theorem exists_head (digits : DigitRow row) : ∃ c cs, row = c :: cs ∧ isDigit c := by
  cases digits with
  | last digit => exact ⟨_, _, rfl, digit⟩
  | next digit _ => exact ⟨_, _, rfl, digit⟩
  | join digit _ => exact ⟨_, _, rfl, digit⟩

theorem isDigit_getLast (digits : DigitRow row) : ∀ c ∈ row.getLast?, isDigit c := by
  induction digits with
  | last digit =>
      rintro c ⟨⟩
      exact digit
  | next _ more ih =>
      obtain ⟨d, ds, rfl, -⟩ := more.exists_head
      rwa [List.getLast?_cons_cons]
  | join _ more ih =>
      obtain ⟨d, ds, rfl, -⟩ := more.exists_head
      rwa [List.getLast?_cons_cons, List.getLast?_cons_cons]

end DigitRow

/-- Digits and underscores that stand where they may, behind a digit, are a row with it. -/
theorem digitRow_cons {cs : List Char} {c : Char} {afterDigit : Bool} (after : afterDigit = true)
    (digit : isDigit c) (joined : underscoresJoin afterDigit cs) (chars : ∀ d ∈ cs, isDigit d ∨ d = '_') :
    DigitRow (c :: cs) := by
  fun_induction underscoresJoin afterDigit cs generalizing c with
  | case1 => exact .last digit
  | case2 => cases joined
  | case3 afterDigit d ds ih =>
      simp only [Bool.and_eq_true] at joined
      refine .join digit (ih rfl joined.1.2 joined.2 ?_)
      exact fun e member => chars e (List.mem_cons_of_mem _ (List.mem_cons_of_mem _ member))
  | case4 afterDigit d ds alone between ih =>
      have next : isDigit d := by
        refine (chars d List.mem_cons_self).resolve_right ?_
        rintro rfl
        cases ds with
        | nil => exact alone rfl rfl
        | cons e es => exact between e es rfl rfl
      exact .next digit (ih next next joined fun e member => chars e (List.mem_cons_of_mem _ member))

/-- A digit is passed over, and what follows it stands behind a digit. -/
theorem underscoresJoin_cons {c : Char} (digit : isDigit c) (cs : List Char) (afterDigit : Bool) :
    underscoresJoin afterDigit (c :: cs) = underscoresJoin true cs := by
  have other : c ≠ '_' := by
    rintro rfl
    exact absurd digit (by decide)
  rw [underscoresJoin.eq_4 _ _ _ (fun same _ => other same) (fun _ _ same _ => other same), digit]

/-- An underscore never comes first, so at the start of a numeral no digit has to be in front. -/
theorem digitRow_of_underscoresJoin {cs : List Char} (joined : underscoresJoin false cs)
    (chars : ∀ d ∈ cs, isDigit d ∨ d = '_') (nonempty : cs ≠ []) : DigitRow cs := by
  cases cs with
  | nil => exact absurd rfl nonempty
  | cons c cs =>
      rcases chars c List.mem_cons_self with digit | rfl
      · rw [underscoresJoin_cons digit] at joined
        exact digitRow_cons rfl digit joined fun d member => chars d (List.mem_cons_of_mem c member)
      · cases cs with
        | nil => cases joined
        | cons d ds =>
            rw [underscoresJoin.eq_3] at joined
            cases joined

/-- The underscores of a row stand where they may. -/
theorem DigitRow.underscoresJoin {row : List Char} (digits : DigitRow row) (afterDigit : Bool) :
    Text.underscoresJoin afterDigit row = true := by
  induction digits generalizing afterDigit with
  | last digit => exact underscoresJoin_cons digit [] afterDigit
  | next digit _ ih => exact (underscoresJoin_cons digit _ afterDigit).trans (ih true)
  | join digit more ih =>
      obtain ⟨d, ds, rfl, first⟩ := more.exists_head
      rw [underscoresJoin_cons digit, Text.underscoresJoin.eq_3, first, ← underscoresJoin_cons first ds true]
      exact ih true

/-- Neither a sign nor a digit is a blank. -/
theorem strip_signed {lead sign row trail : List Char} {negative : Bool}
    (leads : ∀ c ∈ lead, isNumeralBlank c) (trails : ∀ c ∈ trail, isNumeralBlank c)
    (signed : IsSign sign negative) (digits : DigitRow row) :
    strip isNumeralBlank (lead ++ (sign ++ row) ++ trail) = sign ++ row := by
  obtain ⟨d, ds, same, digit⟩ := digits.exists_head
  have nonempty : row ≠ [] := same ▸ List.cons_ne_nil d ds
  refine strip_append leads trails ?_ ?_ (List.append_ne_nil_of_right_ne_nil sign nonempty)
  · cases signed with
    | none =>
        rw [same]
        rintro c ⟨⟩
        exact isNumeralBlank_eq_false_of_isDigit digit
    | plus =>
        rintro c ⟨⟩
        decide
    | minus =>
        rintro c ⟨⟩
        decide
  · rw [List.getLast?_append_of_ne_nil _ nonempty]
    exact fun c last => isNumeralBlank_eq_false_of_isDigit (digits.isDigit_getLast c last)

/-! ## What is read -/

/-- Underscores count for nothing. -/
theorem digitsValue_filter (cs : List Char) : digitsValue (cs.filter (· ≠ '_')) = digitsValue cs := by
  unfold digitsValue
  rw [List.filterMap_filter]
  congr 2
  funext c
  by_cases same : c = '_'
  · subst same
    decide
  · simp [same]

theorem DigitRow.filter_eq {row : List Char} (digits : DigitRow row) :
    row.filter (· ≠ '_') = row.filter isDigit := by
  refine List.filter_congr fun c member => ?_
  rcases digits.mem c member with digit | rfl
  · have other : c ≠ '_' := by
      rintro rfl
      exact absurd digit (by decide)
    simp [digit, other]
  · decide

/-- Without its underscores, a row of digits is taken for its value. -/
theorem splitSign_filter {sign row : List Char} {negative : Bool} (signed : IsSign sign negative)
    (digits : DigitRow row) :
    splitSign ((sign ++ row).filter (· ≠ '_')) = (negative, row.filter isDigit) := by
  have bare : splitSign (row.filter isDigit) = (false, row.filter isDigit) := by
    obtain ⟨c, cs, rfl, digit⟩ := digits.exists_head
    rw [List.filter_cons_of_pos digit]
    unfold splitSign
    split
    · rename_i same
      cases same
      exact absurd digit (by decide)
    · rename_i same
      cases same
      exact absurd digit (by decide)
    · rfl
  rw [List.filter_append, digits.filter_eq]
  cases signed with
  | none => exact bare
  | plus => rfl
  | minus => rfl

/-- A sign and a row of digits, found at the head of a numeral. -/
theorem exists_sign_of_splitSign {cs digits : List Char} {negative : Bool}
    (split : splitSign (cs.filter (· ≠ '_')) = (negative, digits)) (joined : underscoresJoin false cs)
    (nonempty : digits ≠ []) (all : ∀ c ∈ digits, isDigit c) :
    ∃ sign row, cs = sign ++ row ∧ IsSign sign negative ∧ DigitRow row ∧
      digits = row.filter (· ≠ '_') := by
  have rows (row : List Char) (fine : underscoresJoin false row) (same : digits = row.filter (· ≠ '_')) :
      DigitRow row := by
    refine digitRow_of_underscoresJoin fine (fun c member => ?_) ?_
    · by_cases other : c = '_'
      · exact .inr other
      · refine .inl (all c (same ▸ List.mem_filter.mpr ⟨member, by simpa using other⟩))
    · rintro rfl
      exact nonempty same
  cases cs with
  | nil =>
      cases split
      exact absurd rfl nonempty
  | cons c cs =>
      by_cases minus : c = '-'
      · subst minus
        cases split
        exact ⟨['-'], cs, rfl, .minus, rows cs joined rfl, rfl⟩
      by_cases plus : c = '+'
      · subst plus
        cases split
        exact ⟨['+'], cs, rfl, .plus, rows cs joined rfl, rfl⟩
      have signless : splitSign ((c :: cs).filter (· ≠ '_')) = (false, (c :: cs).filter (· ≠ '_')) := by
        by_cases under : c = '_'
        · subst under
          cases cs with
          | nil => rfl
          | cons d ds =>
              rw [underscoresJoin.eq_3] at joined
              cases joined
        · rw [List.filter_cons_of_pos (by simpa using under), splitSign.eq_3 _ (by simpa using minus)
            (by simpa using plus)]
      cases signless.symm.trans split
      exact ⟨[], c :: cs, rfl, .none, rows _ joined rfl, rfl⟩

/-- What is read, once the sign is split off from what stands between the blanks. -/
theorem integer?_eq {s : String} {digits : List Char} {negative : Bool}
    (joined : underscoresJoin false (strip isNumeralBlank s.toList))
    (split : splitSign ((strip isNumeralBlank s.toList).filter (· ≠ '_')) = (negative, digits)) :
    integer? s =
      if digits ≠ [] ∧ digits.all isDigit ∧ digits.length ≤ mostDigits then
        some (if negative then -(digitsValue digits : Int) else digitsValue digits)
      else none := by
  simp only [integer?, bareNumeral?, joined, if_true, split]

/-- A text has a value if and only if it spells an integer, and then that one. -/
theorem integer?_eq_some_iff {s : String} {value : Int} : integer? s = some value ↔ IsInteger s value := by
  constructor
  · intro found
    have joined : underscoresJoin false (strip isNumeralBlank s.toList) := by
      by_contra apart
      simp [integer?, bareNumeral?, apart] at found
    obtain ⟨negative, digits, split⟩ : ∃ negative digits,
      splitSign ((strip isNumeralBlank s.toList).filter (· ≠ '_')) = (negative, digits) := ⟨_, _, rfl⟩
    rw [integer?_eq joined split, Option.ite_none_right_eq_some, Option.some.injEq] at found
    obtain ⟨⟨nonempty, all, short⟩, rfl⟩ := found
    obtain ⟨lead, trail, whole, leads, trails⟩ := exists_strip isNumeralBlank s.toList
    obtain ⟨sign, row, same, signed, digitRow, rfl⟩ :=
      exists_sign_of_splitSign split joined nonempty (List.all_eq_true.mp all)
    refine ⟨lead, sign, row, trail, negative, same ▸ whole, leads, trails, signed, digitRow, ?_, ?_⟩
    · rwa [List.countP_eq_length_filter, ← digitRow.filter_eq]
    · rw [digitsValue_filter]
  · rintro ⟨lead, sign, row, trail, negative, whole, leads, trails, signed, digits, short, rfl⟩
    have stripped : strip isNumeralBlank s.toList = sign ++ row := by
      rw [whole, strip_signed leads trails signed digits]
    have joined : underscoresJoin false (sign ++ row) := by
      cases signed with
      | none => exact digits.underscoresJoin false
      | plus => exact digits.underscoresJoin false
      | minus => exact digits.underscoresJoin false
    rw [integer?_eq (stripped ▸ joined) (stripped ▸ splitSign_filter signed digits), if_pos]
    · rw [← digits.filter_eq, digitsValue_filter]
    · refine ⟨?_, ?_, ?_⟩
      · obtain ⟨c, cs, rfl, digit⟩ := digits.exists_head
        rw [List.filter_cons_of_pos digit]
        exact List.cons_ne_nil _ _
      · exact List.all_eq_true.mpr fun c member => (List.mem_filter.mp member).2
      · rwa [← List.countP_eq_length_filter]

end Treewalk.Text

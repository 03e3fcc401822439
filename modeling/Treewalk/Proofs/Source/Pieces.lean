import Mathlib
import Treewalk.Source.Stream

/-!
# A source in pieces

A lexeme is the longest of its class, so it is cut the same when the source goes on, unless the next
character would have gone on with it (`Lexeme.continues`). A newline goes on with nothing: a source
that is cut without an error up to its end has the same tokens when a newline and more source follow
(`TokenStream.ofChars_append_newline`), and the newlines in it tell on which line the rest starts.
-/

namespace Treewalk

namespace Lexeme

/-! ## Cuts of a source that goes on -/

/-- Whether a lexeme at the end of the source would have been cut longer with `next` behind it. -/
def continues (lexeme : Lexeme) (next : Char) : Bool :=
  match lexeme.kind with
  | .newline | .text => false
  | .blank => isSpace next
  | .comment => next ≠ '\n'
  | .number => Text.isDigit next || next = '.'
  | .name => isNameChar next
  | .operator =>
    match lexeme.chars with
    | [c] => takesEquals c && next = '=' || c = '/' && next = '/'
    | _ => false

/-- What follows a lexeme does not go on with it. -/
def Stops (lexeme : Lexeme) (more : List Char) : Prop :=
  ∀ next ∈ more.head?, lexeme.continues next = false

theorem stops_newline (lexeme : Lexeme) (more : List Char) : lexeme.Stops ('\n' :: more) := by
  rintro next ⟨⟩
  unfold continues
  split
  · rfl
  · rfl
  · rfl
  · rfl
  · decide
  · rfl
  · split
    · simp
    · rfl

/-- A run of characters of a class ends where it did, if no such character comes to stand behind it. -/
theorem takeWhile_append_of_stop {p : Char → Bool} (cs : List Char) {more : List Char}
    (stop : ∀ next ∈ more.head?, p next = false) :
    (cs ++ more).takeWhile p = cs.takeWhile p ∧ (cs ++ more).dropWhile p = cs.dropWhile p ++ more := by
  induction cs with
  | nil =>
      cases more with
      | nil => simp
      | cons next more => simp [stop next rfl]
  | cons c cs ih =>
      by_cases inside : p c
      · simp [inside, ih.1, ih.2]
      · simp [inside]

theorem cutNumber_append_of_stop (cs : List Char) {more : List Char}
    (stop : ∀ next ∈ more.head?, (Text.isDigit next || next = '.') = false) :
    cutNumber (cs ++ more) = ((cutNumber cs).1, (cutNumber cs).2 ++ more) := by
  have noDigit : ∀ next ∈ more.head?, Text.isDigit next = false := fun next member =>
    (Bool.or_eq_false_iff.mp (stop next member)).1
  obtain ⟨took, left⟩ := takeWhile_append_of_stop cs noDigit
  unfold cutNumber
  simp only [took, left]
  -- The whole part is the same; a point that ends the source so far must not get a digit behind it.
  generalize cs.dropWhile Text.isDigit = rest
  match rest with
  | [] =>
      cases more with
      | nil => rfl
      | cons next more =>
          have point : next ≠ '.' := by simpa using (Bool.or_eq_false_iff.mp (stop next rfl)).2
          simp [point]
  | [c] =>
      cases more with
      | nil => simp
      | cons next more =>
          by_cases point : c = '.'
          · subst point
            simp [noDigit next rfl]
          · simp [point]
  | c :: d :: rest =>
      by_cases point : c = '.'
      · subst point
        obtain ⟨tookMore, leftMore⟩ := takeWhile_append_of_stop rest noDigit
        by_cases digit : Text.isDigit d
        · simp [digit, tookMore, leftMore]
        · simp [digit]
      · simp [point]

theorem cutText_append_of_some {cs inside rest : List Char} (more : List Char)
    (closed : cutText cs = some (inside, rest)) :
    cutText (cs ++ more) = some (inside, rest ++ more) := by
  fun_induction cutText cs generalizing inside rest with
  | case1 => cases closed
  | case2 cs =>
      cases closed
      rfl
  | case3 c cs ih =>
      obtain ⟨⟨body, after⟩, found, same⟩ := Option.map_eq_some_iff.mp closed
      cases same
      simp [cutText, ih found]
  | case4 c cs quote escape ih =>
      obtain ⟨⟨body, after⟩, found, same⟩ := Option.map_eq_some_iff.mp closed
      cases same
      rw [List.cons_append, cutText, ih found]
      · rfl
      · exact quote
      · rintro d ds rfl same
        cases cs with
        | nil => cases found
        | cons e es =>
            cases same
            exact escape _ _ rfl rfl

/-- The characters that may begin an operator of two characters, or a comment, are operators. -/
theorem cut_last {c : Char} (first : takesEquals c ∨ c = '/') :
    cut c [] = .ok (⟨.operator, [c]⟩, []) := by
  simp only [takesEquals, Bool.or_eq_true, decide_eq_true_eq] at first
  rcases first with (((rfl | rfl) | rfl) | rfl) | rfl <;> rfl

/-- A lexeme is cut the same when the source goes on with a character that does not belong to it. -/
theorem cut_append_of_stops {c : Char} {cs rest : List Char} {lexeme : Lexeme}
    (done : cut c cs = .ok (lexeme, rest)) {more : List Char} (stops : lexeme.Stops more) :
    cut c (cs ++ more) = .ok (lexeme, rest ++ more) := by
  -- Two classes are told by the second character. Where there was none, `stops` is about it.
  have second (mark : Char) (first : takesEquals c ∧ mark = '=' ∨ c = '/' ∧ mark = '/') :
      (cs ++ more).head? = some mark ↔ cs.head? = some mark := by
    cases cs with
    | cons d ds => simp
    | nil =>
        rw [cut_last (first.imp And.left And.left)] at done
        cases done
        simp only [List.nil_append, List.head?_nil, reduceCtorEq, iff_false]
        intro found
        have stopped := stops mark found
        rcases first with ⟨double, rfl⟩ | ⟨rfl, rfl⟩
        · simp [continues, double] at stopped
        · cases stopped
  have comment : (c = '/' ∧ (cs ++ more).head? = some '/') ↔ (c = '/' ∧ cs.head? = some '/') :=
    and_congr_right fun slash => second '/' (.inr ⟨slash, rfl⟩)
  have double : (takesEquals c ∧ (cs ++ more).head? = some '=') ↔
      (takesEquals c ∧ cs.head? = some '=') :=
    and_congr_right fun takes => second '=' (.inl ⟨takes, rfl⟩)
  unfold cut at done ⊢
  simp only [comment, double]
  by_cases newline : c = '\n'
  · rw [if_pos newline] at done ⊢
    cases done
    rfl
  rw [if_neg newline] at done ⊢
  by_cases blank : isSpace c
  · rw [if_pos blank] at done ⊢
    cases done
    obtain ⟨took, left⟩ := takeWhile_append_of_stop (p := isSpace) cs stops
    rw [took, left]
  rw [if_neg blank] at done ⊢
  by_cases slashes : c = '/' ∧ cs.head? = some '/'
  · rw [if_pos slashes] at done ⊢
    cases done
    obtain ⟨took, left⟩ := takeWhile_append_of_stop (p := (· ≠ '\n')) cs stops
    rw [took, left]
  rw [if_neg slashes] at done ⊢
  by_cases digit : Text.isDigit c
  · rw [if_pos digit] at done ⊢
    cases done
    rw [cutNumber_append_of_stop cs stops]
  rw [if_neg digit] at done ⊢
  by_cases quote : c = '"'
  · rw [if_pos quote] at done ⊢
    cases closed : cutText cs with
    | none =>
        rw [closed] at done
        cases done
    | some both =>
        rw [closed] at done
        cases done
        rw [cutText_append_of_some more closed]
  rw [if_neg quote] at done ⊢
  by_cases name : isNameStart c
  · rw [if_pos name] at done ⊢
    cases done
    obtain ⟨took, left⟩ := takeWhile_append_of_stop (p := isNameChar) cs stops
    rw [took, left]
  rw [if_neg name] at done ⊢
  by_cases equals : takesEquals c ∧ cs.head? = some '='
  · rw [if_pos equals] at done ⊢
    cases done
    cases cs with
    | nil => exact absurd equals.2 nofun
    | cons d ds => rfl
  rw [if_neg equals] at done ⊢
  by_cases operator : isOperator c
  · rw [if_pos operator] at done ⊢
    cases done
    rfl
  · rw [if_neg operator] at done
    cases done

end Lexeme

/-! ## Streams -/

namespace TokenStream

/-- A stream with more tokens in front. -/
def prepend (row : List Token) (stream : TokenStream) : TokenStream :=
  { stream with tokens := row ++ stream.tokens }

/-- The stream of a piece of source that starts on `line`. -/
def ofChars (line : Int) (cs : List Char) : TokenStream :=
  ofLexemes line (Lexeme.cutAll cs).1 (Lexeme.cutAll cs).2

theorem ofSource_eq_ofChars (source : String) : ofSource source = ofChars 1 source.toList := rfl

theorem ofChars_nil (line : Int) : ofChars line [] = ⟨[], .eof line⟩ := by
  simp only [ofChars, Lexeme.cutAll, ofLexemes]

/-- The stream of a source by its first lexeme. -/
theorem ofChars_cons (line : Int) (c : Char) (cs : List Char) :
    ofChars line (c :: cs) =
      match Lexeme.cut c cs with
      | .error fault => ⟨[], .fault line fault⟩
      | .ok (lexeme, rest) =>
        match lexeme.token line with
        | .error bad => ⟨[], .fault line bad⟩
        | .ok token? => (ofChars (line + lexeme.newlines) rest).prepend token?.toList := by
  unfold ofChars
  rw [Lexeme.cutAll]
  split
  · rename_i done
    simp only [done, ofLexemes]
  · rename_i lexeme rest done
    simp only [done, ofLexemes]
    cases lexeme.token line with
    | error bad => rfl
    | ok token? => rfl

/-- A source without an error has the same tokens when a newline and more source follow; its newlines
tell the line of the rest. -/
theorem ofChars_append_newline {line last : Int} {cs : List Char}
    (ending : (ofChars line cs).ending = .eof last) (more : List Char) :
    last = line + cs.count '\n' ∧
      ofChars line (cs ++ '\n' :: more) =
        (ofChars last ('\n' :: more)).prepend (ofChars line cs).tokens := by
  induction length : cs.length using Nat.strongRecOn generalizing line cs with
  | ind n ih =>
    cases cs with
    | nil =>
        rw [ofChars_nil] at ending ⊢
        cases ending
        simp [prepend]
    | cons c cs =>
        rw [ofChars_cons] at ending ⊢
        rw [List.cons_append, ofChars_cons]
        cases done : Lexeme.cut c cs with
        | error fault =>
            rw [done] at ending
            cases ending
        | ok both =>
            obtain ⟨lexeme, rest⟩ := both
            rw [done] at ending
            rw [Lexeme.cut_append_of_stops done (lexeme.stops_newline more)]
            simp only at ending ⊢
            cases made : lexeme.token line with
            | error bad =>
                rw [made] at ending
                cases ending
            | ok token? =>
                rw [made] at ending
                have shorter : rest.length < n := length ▸ Lexeme.length_rest_lt done
                obtain ⟨counted, same⟩ := ih _ shorter ending rfl
                refine ⟨?_, ?_⟩
                · rw [counted, ← Lexeme.cut_append done, List.count_append, Lexeme.newlines]
                  omega
                · simp only [same]
                  simp [prepend]

end TokenStream

end Treewalk

import Treewalk.Proofs.Source.Longest
import Treewalk.Proofs.Source.Pieces

/-!
# The lexemes of a source

A source is cut into lexemes without gap or overlap up to its end, or up to the first place where no
token can be made. `Lexed` says what the stream of a source has to do with these lexemes: one token for
each that is more than layout, on the line that is told by the newlines in front of it, and the end of
input or the error on the line where the lexemes end. `TokenStream.exists_lexed` shows it of every
source.
-/

namespace Treewalk

/-! ## Values of texts -/

namespace Text

/-- The characters that may follow a backslash, with what the two stand for together. -/
def escapes : List (Char × Char) := [('n', '\n'), ('t', '\t'), ('"', '"'), ('\\', '\\')]

/-- What the inside of a text stands for. -/
inductive Denotes : List Char → List Char → Prop
  | nil : Denotes [] []
  | plain {c : Char} {cs value : List Char} :
      c ≠ '\\' → Denotes cs value → Denotes (c :: cs) (c :: value)
  | escape {c meant : Char} {cs value : List Char} :
      (c, meant) ∈ escapes → Denotes cs value → Denotes ('\\' :: c :: cs) (meant :: value)

/-- The first escape of a text that stands for nothing, by the character behind its backslash. -/
def BadEscape (inside : List Char) (bad : Char) : Prop :=
  ∃ before value after, inside = before ++ '\\' :: bad :: after ∧ Denotes before value ∧
    ∀ meant, (bad, meant) ∉ escapes

theorem BadEscape.cons {inside : List Char} {bad c : Char} (plain : c ≠ '\\')
    (is : BadEscape inside bad) : BadEscape (c :: inside) bad := by
  obtain ⟨before, value, after, rfl, denotes, unknown⟩ := is
  exact ⟨c :: before, c :: value, after, rfl, .plain plain denotes, unknown⟩

theorem BadEscape.escape {inside : List Char} {bad c meant : Char} (known : (c, meant) ∈ escapes)
    (is : BadEscape inside bad) : BadEscape ('\\' :: c :: inside) bad := by
  obtain ⟨before, value, after, rfl, denotes, unknown⟩ := is
  exact ⟨'\\' :: c :: before, meant :: value, after, rfl, .escape known denotes, unknown⟩

end Text

namespace Lexeme

/-- Decoding the inside of a text gives what it stands for, or finds its first bad escape. -/
theorem decode_cases {inside : List Char} (is : Text.Inside inside) :
    (∃ value, decode inside = .ok value ∧ Text.Denotes inside value) ∨
      ∃ bad, decode inside = .error (.unknownEscape bad) ∧ Text.BadEscape inside bad := by
  induction is with
  | nil => exact .inl ⟨[], rfl, .nil⟩
  | @plain c cs _ escape _ ih =>
      have step : decode (c :: cs) = (decode cs).map (c :: ·) := by
        rw [decode]
        exact fun _ _ same => absurd same escape
      rcases ih with ⟨value, done, denotes⟩ | ⟨bad, done, found⟩
      · exact .inl ⟨c :: value, by rw [step, done]; rfl, .plain escape denotes⟩
      · exact .inr ⟨bad, by rw [step, done]; rfl, found.cons escape⟩
  | @escape c cs _ ih =>
      have known (meant : Char) (listed : (c, meant) ∈ Text.escapes)
          (step : decode ('\\' :: c :: cs) = (decode cs).map (meant :: ·)) :
          (∃ value, decode ('\\' :: c :: cs) = .ok value ∧ Text.Denotes ('\\' :: c :: cs) value) ∨
            ∃ bad, decode ('\\' :: c :: cs) = .error (.unknownEscape bad) ∧
              Text.BadEscape ('\\' :: c :: cs) bad := by
        rcases ih with ⟨value, done, denotes⟩ | ⟨bad, done, found⟩
        · exact .inl ⟨meant :: value, by rw [step, done]; rfl, .escape listed denotes⟩
        · exact .inr ⟨bad, by rw [step, done]; rfl, found.escape listed⟩
      by_cases newline : c = 'n'
      · subst newline
        exact known '\n' (by decide) rfl
      by_cases tab : c = 't'
      · subst tab
        exact known '\t' (by decide) rfl
      by_cases itself : c = '"' ∨ c = '\\'
      · refine known c ?_ ?_
        · rcases itself with rfl | rfl <;> decide
        · rw [decode, if_neg newline, if_neg tab, if_pos itself]
      · refine .inr ⟨c, ?_, [], [], cs, rfl, .nil, ?_⟩
        · rw [decode, if_neg newline, if_neg tab, if_neg itself]
        · intro meant listed
          simp only [Text.escapes, List.mem_cons, Prod.mk.injEq, List.not_mem_nil, or_false] at listed
          tauto

/-! ## Tokens of lexemes -/

/-- Newlines, blanks and comments make no token. -/
def isLayout (lexeme : Lexeme) : Bool :=
  lexeme.kind = .newline || lexeme.kind = .blank || lexeme.kind = .comment

/-- The token that a lexeme makes on a line. It has the text of the lexeme, or what a text stands for. -/
inductive Yields (line : Int) : Lexeme → Token → Prop
  | number {chars : List Char} : Yields line ⟨.number, chars⟩ ⟨.number, String.ofList chars, line⟩
  | text {inside value : List Char} : Text.Denotes inside value →
      Yields line ⟨.text, '"' :: (inside ++ ['"'])⟩ ⟨.text, String.ofList value, line⟩
  | keyword {chars : List Char} : String.ofList chars ∈ Token.keywords →
      Yields line ⟨.name, chars⟩ ⟨.keyword, String.ofList chars, line⟩
  | name {chars : List Char} : String.ofList chars ∉ Token.keywords →
      Yields line ⟨.name, chars⟩ ⟨.name, String.ofList chars, line⟩
  | operator {chars : List Char} :
      Yields line ⟨.operator, chars⟩ ⟨.operator, String.ofList chars, line⟩

theorem Yields.line_eq {line : Int} {lexeme : Lexeme} {t : Token} (yields : lexeme.Yields line t) :
    t.line = line := by
  cases yields <;> rfl

/-- Why no token can be made at the head of `cs`. -/
inductive Blocked : List Char → ReadFault → Prop
  /-- A character that no lexeme starts with. -/
  | character {c : Char} {cs : List Char} : c ≠ '"' →
      (∀ (kind : LexemeClass) (chars : List Char), kind.Matches chars → ¬ chars <+: c :: cs) →
      Blocked (c :: cs) (.unexpectedCharacter c)
  /-- A quote that is not closed. -/
  | quote {cs : List Char} :
      (∀ (kind : LexemeClass) (chars : List Char), kind.Matches chars → ¬ chars <+: '"' :: cs) →
      Blocked ('"' :: cs) .unterminatedText
  /-- A text with a bad escape. -/
  | escape {inside cs : List Char} {bad : Char} :
      Longest ⟨.text, '"' :: (inside ++ ['"'])⟩ cs → Text.BadEscape inside bad →
      Blocked cs (.unknownEscape bad)

theorem blocked_of_cut {c : Char} {cs : List Char} {fault : ReadFault} (refused : cut c cs = .error fault) :
    Blocked (c :: cs) fault := by
  have nothing (kind : LexemeClass) (chars : List Char) (belongs : kind.Matches chars) :
      ¬ chars <+: c :: cs := by
    intro starts
    obtain ⟨_, _, done, _⟩ := exists_cut_of_matches belongs starts
    rw [refused] at done
    cases done
  unfold cut at refused
  split at refused
  · cases refused
  split at refused
  · cases refused
  split at refused
  · cases refused
  split at refused
  · cases refused
  split at refused
  · rename_i quote
    subst quote
    split at refused
    · cases refused
    · cases refused
      exact .quote nothing
  rename_i quote
  split at refused
  · cases refused
  split at refused
  · cases refused
  split at refused
  · cases refused
  · cases refused
    exact .character quote nothing

/-- A lexeme at the head of `cs` is layout, makes its token or is a text with a bad escape. -/
theorem token_cases {lexeme : Lexeme} {cs : List Char} (longest : lexeme.Longest cs) (line : Int) :
    (lexeme.isLayout = true ∧ lexeme.token line = .ok none) ∨
      (lexeme.isLayout = false ∧ ∃ t, lexeme.token line = .ok (some t) ∧ lexeme.Yields line t) ∨
      ∃ fault, lexeme.token line = .error fault ∧ Blocked cs fault := by
  obtain ⟨kind, chars⟩ := lexeme
  cases kind with
  | newline | blank | comment => exact .inl ⟨rfl, rfl⟩
  | number => exact .inr (.inl ⟨rfl, _, rfl, .number⟩)
  | operator => exact .inr (.inl ⟨rfl, _, rfl, .operator⟩)
  | name =>
      refine .inr (.inl ⟨rfl, _, rfl, ?_⟩)
      by_cases keyword : String.ofList chars ∈ Token.keywords
      · rw [if_pos keyword]
        exact .keyword keyword
      · rw [if_neg keyword]
        exact .name keyword
  | text =>
      obtain ⟨inside, is, same⟩ := longest.belongs
      simp only at same
      subst same
      have between : (('"' :: (inside ++ ['"'])).drop 1).dropLast = inside := by simp
      have made : token line ⟨.text, '"' :: (inside ++ ['"'])⟩ =
          (decode inside).map fun value => some ⟨.text, String.ofList value, line⟩ := by
        show (decode (('"' :: (inside ++ ['"'])).drop 1).dropLast).map _ = _
        rw [between]
      rcases decode_cases is with ⟨value, done, denotes⟩ | ⟨bad, done, found⟩
      · exact .inr (.inl ⟨rfl, _, by rw [made, done]; rfl, .text denotes⟩)
      · exact .inr (.inr ⟨_, by rw [made, done]; rfl, .escape longest found⟩)

/-! ## Places of lexemes -/

/-- Lexemes in a row behind `before`, each with all that stands in front of it. -/
def placed (before : List Char) : List Lexeme → List (List Char × Lexeme)
  | [] => []
  | lexeme :: more => (before, lexeme) :: placed (before ++ lexeme.chars) more

end Lexeme

/-- The lexemes of the piece `cs` of a source that stands behind `before`, the part `rest` of it that is
left over, and the stream of the piece. -/
structure Lexed (before cs : List Char) (stream : TokenStream) (lexemes : List Lexeme)
    (rest : List Char) : Prop where
  /-- There is no gap between the lexemes, and they do not overlap. -/
  covers : cs = lexemes.flatMap Lexeme.chars ++ rest
  /-- Each of them is the longest that stands at its place. -/
  longest : ∀ place ∈ Lexeme.placed before lexemes, ∃ left,
    before ++ cs = place.1 ++ left ∧ place.2.Longest left
  /-- Those that are more than layout make a token each, in order, on the line that the newlines in front
  of them tell. -/
  tokens : List.Forall₂ (fun place t => place.2.Yields (1 + place.1.count '\n') t)
    ((Lexeme.placed before lexemes).filter fun place => !place.2.isLayout) stream.tokens
  /-- Nothing is left over and the input ends there, or what is left over starts with what makes no
  token. -/
  ending : rest = [] ∧ stream.ending = .eof (1 + (before ++ cs).count '\n') ∨
    ∃ fault, Lexeme.Blocked rest fault ∧
      stream.ending = .fault (1 + (before ++ lexemes.flatMap Lexeme.chars).count '\n') fault

namespace Lexed

variable {before : List Char}

theorem nil : Lexed before [] ⟨[], .eof (1 + before.count '\n')⟩ [] [] where
  covers := rfl
  longest := by simp [Lexeme.placed]
  tokens := .nil
  ending := .inl ⟨rfl, by simp⟩

theorem blocked {cs : List Char} {fault : ReadFault} (blocked : Lexeme.Blocked cs fault) :
    Lexed before cs ⟨[], .fault (1 + before.count '\n') fault⟩ [] cs where
  covers := rfl
  longest := by simp [Lexeme.placed]
  tokens := .nil
  ending := .inr ⟨fault, blocked, by simp⟩

/-- A lexeme in front of lexemes. -/
theorem cons {lexeme : Lexeme} {cs : List Char} {stream : TokenStream} {lexemes : List Lexeme}
    {rest : List Char} {token? : Option Token} (longest : lexeme.Longest (lexeme.chars ++ cs))
    (made : lexeme.isLayout = true ∧ token? = none ∨ lexeme.isLayout = false ∧
      ∃ t, token? = some t ∧ lexeme.Yields (1 + before.count '\n') t)
    (more : Lexed (before ++ lexeme.chars) cs stream lexemes rest) :
    Lexed before (lexeme.chars ++ cs) (stream.prepend token?.toList) (lexeme :: lexemes) rest where
  covers := by rw [List.flatMap_cons, List.append_assoc, ← more.covers]
  longest := by
    intro place member
    rcases List.mem_cons.mp member with rfl | later
    · exact ⟨_, rfl, longest⟩
    · rw [← List.append_assoc]
      exact more.longest place later
  tokens := by
    rcases made with ⟨layout, rfl⟩ | ⟨layout, t, rfl, yields⟩
    · rw [Lexeme.placed, List.filter_cons_of_neg (by simp [layout])]
      exact more.tokens
    · rw [Lexeme.placed, List.filter_cons_of_pos (by simp [layout])]
      exact .cons yields more.tokens
  ending := by
    rw [List.flatMap_cons, ← List.append_assoc, ← List.append_assoc]
    exact more.ending

/-- Every token stands on a line of the source. -/
theorem line_of_mem {cs : List Char} {stream : TokenStream} {lexemes : List Lexeme} {rest : List Char}
    (lexed : Lexed before cs stream lexemes rest) {t : Token} (member : t ∈ stream.tokens) :
    ∃ front, front <+: before ++ cs ∧ t.line = 1 + front.count '\n' := by
  obtain ⟨i, inside, rfl⟩ := List.getElem_of_mem member
  have making := lexed.tokens.length_eq ▸ inside
  have yields := lexed.tokens.get making inside
  have place := (List.mem_filter.mp (List.getElem_mem making)).1
  obtain ⟨left, same, -⟩ := lexed.longest _ place
  exact ⟨_, ⟨left, same.symm⟩, yields.line_eq⟩

end Lexed

namespace TokenStream

/-- The stream of any piece of source comes from its lexemes. -/
theorem exists_lexed (before cs : List Char) :
    ∃ lexemes rest, Lexed before cs (ofChars (1 + before.count '\n') cs) lexemes rest := by
  induction length : cs.length using Nat.strongRecOn generalizing before cs with
  | ind n ih =>
    cases cs with
    | nil =>
        rw [ofChars_nil]
        exact ⟨[], [], .nil⟩
    | cons c cs =>
        rw [ofChars_cons]
        cases done : Lexeme.cut c cs with
        | error fault => exact ⟨[], c :: cs, .blocked (Lexeme.blocked_of_cut done)⟩
        | ok both =>
            obtain ⟨lexeme, left⟩ := both
            have longest := Lexeme.longest_of_cut done
            have whole := Lexeme.cut_append done
            have shorter : left.length < n := length ▸ Lexeme.length_rest_lt done
            obtain ⟨lexemes, rest, more⟩ := ih _ shorter (before ++ lexeme.chars) left rfl
            have counted : (1 : Int) + (before.count '\n' : Nat) + (lexeme.newlines : Nat) =
                1 + ((before ++ lexeme.chars).count '\n' : Nat) := by
              rw [List.count_append, Lexeme.newlines]
              omega
            rcases Lexeme.token_cases longest (1 + before.count '\n') with
              ⟨layout, made⟩ | ⟨solid, t, made, yields⟩ | ⟨fault, made, blocked⟩
            · simp only [made, counted]
              exact ⟨lexeme :: lexemes, rest, whole ▸ .cons (whole ▸ longest) (.inl ⟨layout, rfl⟩) more⟩
            · simp only [made, counted]
              exact ⟨lexeme :: lexemes, rest,
                whole ▸ .cons (whole ▸ longest) (.inr ⟨solid, t, rfl, yields⟩) more⟩
            · simp only [made]
              exact ⟨[], c :: cs, .blocked blocked⟩

/-- The lines of a source are counted from 1 by its newlines, and its tokens stand on them. -/
theorem line_mem_ofSource {source : String} {t : Token} (member : t ∈ (ofSource source).tokens) :
    1 ≤ t.line ∧ t.line ≤ 1 + source.toList.count '\n' := by
  obtain ⟨lexemes, rest, lexed⟩ := exists_lexed [] source.toList
  obtain ⟨front, starts, line⟩ := lexed.line_of_mem member
  have fewer := starts.sublist.count_le '\n'
  rw [List.nil_append] at fewer
  omega

theorem line_eof_ofSource {source : String} {line : Int}
    (ending : (ofSource source).ending = .eof line) : line = 1 + source.toList.count '\n' := by
  obtain ⟨lexemes, rest, lexed⟩ := exists_lexed [] source.toList
  have same : ofSource source = ofChars (1 + (([] : List Char).count '\n' : Nat)) source.toList := rfl
  rcases lexed.ending with ⟨-, eof⟩ | ⟨fault, -, stopped⟩
  · rw [same, eof] at ending
    cases ending
    rfl
  · rw [same, stopped] at ending
    cases ending

/-- An error of the source is on one of its lines. -/
theorem line_fault_ofSource {source : String} {line : Int} {fault : ReadFault}
    (ending : (ofSource source).ending = .fault line fault) :
    1 ≤ line ∧ line ≤ 1 + source.toList.count '\n' := by
  obtain ⟨lexemes, rest, lexed⟩ := exists_lexed [] source.toList
  have same : ofSource source = ofChars (1 + (([] : List Char).count '\n' : Nat)) source.toList := rfl
  rcases lexed.ending with ⟨-, eof⟩ | ⟨fault, -, stopped⟩
  · rw [same, eof] at ending
    cases ending
  · rw [same, stopped] at ending
    cases ending
    rw [lexed.covers, List.nil_append, List.count_append]
    omega

end TokenStream

/-- Lexing partitions the source and counts lines exactly. The source is cut, from its front and without
gap or overlap, into lexemes of which each is the longest that stands at its place. Those that are more
than layout make the tokens, each on line one more than the newlines in front of it. If the lexemes make
up the whole source, the input ends on line one more than all its newlines; otherwise the error is on
line one more than the newlines in front of the first character that starts no lexeme, quote that is not
closed, or text with a bad escape. -/
theorem lexing_partitions_and_counts (source : String) :
    ∃ lexemes rest, Lexed [] source.toList (TokenStream.ofSource source) lexemes rest :=
  TokenStream.exists_lexed [] source.toList

end Treewalk

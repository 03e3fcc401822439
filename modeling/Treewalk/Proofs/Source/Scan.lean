import Treewalk.Proofs.Source.Longest
import Treewalk.Proofs.Source.Pieces
import Treewalk.Tree.Render

/-!
# Scanning without lines

`TokenStream.scan` is the stream of a source with every line left out, so that it does not matter where
a piece of source stands. The laws here say which token each written piece has: a blank has none, a
fixed mark and a text in quotes have their own, and a token that was cut from a source has itself again
(`Token.Verbatim`) in front of a character that ends it.
-/

namespace Treewalk

/-- A token without its line. -/
def Token.unlined (t : Token) : Token := { t with line := 0 }

theorem Lexeme.token_unlined (lexeme : Lexeme) (line : Int) :
    (lexeme.token line).map (Option.map Token.unlined) = lexeme.token 0 := by
  unfold token
  cases lexeme.kind with
  | text =>
      cases decode (lexeme.chars.drop 1).dropLast with
      | error fault => rfl
      | ok value => rfl
  | _ => rfl

namespace TokenStream

def unlined (stream : TokenStream) : TokenStream where
  tokens := stream.tokens.map Token.unlined
  ending :=
    match stream.ending with
    | .eof _ => .eof 0
    | .fault _ fault => .fault 0 fault

theorem unlined_prepend (row : List Token) (stream : TokenStream) :
    (stream.prepend row).unlined = stream.unlined.prepend (row.map Token.unlined) := by
  simp [unlined, prepend]

theorem prepend_prepend (row more : List Token) (stream : TokenStream) :
    (stream.prepend more).prepend row = stream.prepend (row ++ more) := by
  simp [prepend]

/-- What a lexeme puts in front of the stream of the rest, without lines. -/
def lead (lexeme : Lexeme) (rest : TokenStream) : TokenStream :=
  match lexeme.token 0 with
  | .error bad => ⟨[], .fault 0 bad⟩
  | .ok token? => rest.prepend token?.toList

theorem unlined_ofChars_cons (line : Int) (c : Char) (cs : List Char) :
    (ofChars line (c :: cs)).unlined =
      match Lexeme.cut c cs with
      | .error fault => ⟨[], .fault 0 fault⟩
      | .ok (lexeme, rest) => lead lexeme (ofChars (line + lexeme.newlines) rest).unlined := by
  rw [ofChars_cons]
  cases Lexeme.cut c cs with
  | error fault => rfl
  | ok both =>
      simp only [lead, ← both.1.token_unlined line]
      cases both.1.token line with
      | error bad => rfl
      | ok token? =>
          simp only [Except.map, unlined_prepend]
          cases token? <;> rfl

/-- The stream of a source without its lines. -/
def scan (cs : List Char) : TokenStream := (ofChars 0 cs).unlined

/-- Whatever line a source starts on, without lines its stream is the same. -/
theorem unlined_ofChars (line : Int) (cs : List Char) : (ofChars line cs).unlined = scan cs := by
  -- The line that the scan starts on is left open too: behind a newline it is no longer 0.
  unfold scan
  generalize (0 : Int) = other
  induction length : cs.length using Nat.strongRecOn generalizing line other cs with
  | ind n ih =>
    cases cs with
    | nil =>
        rw [ofChars_nil, ofChars_nil]
        rfl
    | cons c cs =>
        rw [unlined_ofChars_cons, unlined_ofChars_cons]
        cases done : Lexeme.cut c cs with
        | error fault => rfl
        | ok both =>
            have shorter : both.2.length < n := length ▸ Lexeme.length_rest_lt done
            exact congrArg (lead both.1) (ih _ shorter _ _ _ rfl)

theorem scan_nil : scan [] = ⟨[], .eof 0⟩ := by
  rw [scan, ofChars_nil]
  rfl

theorem scan_of_cut {c : Char} {cs rest : List Char} {lexeme : Lexeme} {token? : Option Token}
    (done : Lexeme.cut c cs = .ok (lexeme, rest)) (made : lexeme.token 0 = .ok token?) :
    scan (c :: cs) = (scan rest).prepend token?.toList := by
  rw [scan, unlined_ofChars_cons, done]
  simp only [lead, made, unlined_ofChars]

theorem scan_token_of_cut {c : Char} {cs rest : List Char} {lexeme : Lexeme} {t : Token}
    (done : Lexeme.cut c cs = .ok (lexeme, rest)) (made : lexeme.token 0 = .ok (some t)) :
    scan (c :: cs) = (scan rest).prepend [t] :=
  scan_of_cut done made

/-- A lexeme that is cut whole from its own characters, in front of what does not go on with it. -/
theorem scan_lexeme {c : Char} (cs : List Char) {rest : List Char} {lexeme : Lexeme} {t : Token}
    (whole : Lexeme.cut c cs = .ok (lexeme, [])) (made : lexeme.token 0 = .ok (some t))
    (stops : lexeme.Stops rest) : scan (c :: (cs ++ rest)) = (scan rest).prepend [t] :=
  scan_token_of_cut (Lexeme.cut_append_of_stops whole stops) made

/-! ## Blanks and marks -/

/-- Blanks in front of a source take no line. -/
theorem ofChars_dropWhile_isSpace (line : Int) (cs : List Char) :
    ofChars line (cs.dropWhile Lexeme.isSpace) = ofChars line cs := by
  cases cs with
  | nil => rfl
  | cons c cs =>
      by_cases space : Lexeme.isSpace c
      · have sameLine : Lexeme.newlines ⟨.blank, c :: cs.takeWhile Lexeme.isSpace⟩ = 0 := by
          refine List.count_eq_zero.mpr fun member => ?_
          rcases List.mem_cons.mp member with rfl | inside
          · exact absurd space (by decide)
          · exact absurd (List.all_eq_true.mp List.all_takeWhile _ inside) (by decide)
        rw [List.dropWhile_cons_of_pos space, ofChars_cons, Lexeme.cut_blank cs space]
        simp [Lexeme.token, sameLine, prepend]
      · rw [List.dropWhile_cons_of_neg space]

theorem ofChars_space (line : Int) (cs : List Char) : ofChars line (' ' :: cs) = ofChars line cs := by
  rw [← ofChars_dropWhile_isSpace line (' ' :: cs), List.dropWhile_cons_of_pos (by decide),
    ofChars_dropWhile_isSpace]

theorem scan_space (cs : List Char) : scan (' ' :: cs) = scan cs :=
  congrArg unlined (ofChars_space 0 cs)

end TokenStream

/-- The characters that stand behind a written word or expression. -/
def delimiters : List Char := [' ', '(', ')', '[', ']', '\x7d', ',', ':', ';']

/-- A rest that ends the word in front of it. -/
def Delimited (rest : List Char) : Prop := ∀ c ∈ rest.head?, c ∈ delimiters

theorem delimited_cons {c : Char} (member : c ∈ delimiters) (rest : List Char) :
    Delimited (c :: rest) := by
  rintro _ ⟨⟩
  exact member

/-- A delimiter goes on with no lexeme but layout. -/
theorem Lexeme.stops_of_delimited {lexeme : Lexeme} {rest : List Char} (delimited : Delimited rest)
    (kind : lexeme.kind ≠ .blank ∧ lexeme.kind ≠ .comment) : lexeme.Stops rest := by
  intro next member
  have apart : ∀ c ∈ delimiters, Text.isDigit c = false ∧ c ≠ '.' ∧ isNameChar c = false ∧ c ≠ '=' ∧
      c ≠ '/' := by
    intro c member
    simp only [delimiters, List.mem_cons, List.not_mem_nil, or_false] at member
    rcases member with rfl | rfl | rfl | rfl | rfl | rfl | rfl | rfl | rfl
    all_goals exact ⟨rfl, by decide, rfl, by decide, by decide⟩
  obtain ⟨digit, point, name, equals, slash⟩ := apart next (delimited next member)
  unfold continues
  split
  · rfl
  · rfl
  · exact absurd ‹_› kind.1
  · exact absurd ‹_› kind.2
  · simp [digit, point]
  · exact name
  · split
    · simp [equals, slash]
    · rfl

/-- The token of a fixed word or mark. -/
def Token.fixed (mark : String) : Token :=
  ⟨if mark ∈ keywords then .keyword else .operator, mark, 0⟩

@[simp]
theorem Token.line_fixed (mark : String) : (Token.fixed mark).line = 0 := rfl

theorem Token.spells_fixed (mark : String) : (Token.fixed mark).spells mark := by
  unfold fixed
  split <;> simp [spells]

namespace TokenStream

/-- The marks of one character that never go on. -/
def marks : List Char := ['(', ')', '[', ']', '\x7b', '\x7d', ',', ':', ';', '-']

theorem scan_mark {c : Char} (mark : c ∈ marks) (rest : List Char) :
    scan (c :: rest) = (scan rest).prepend [.fixed (String.singleton c)] := by
  simp only [marks, List.mem_cons, List.not_mem_nil, or_false] at mark
  rcases mark with rfl | rfl | rfl | rfl | rfl | rfl | rfl | rfl | rfl | rfl <;>
    exact scan_lexeme [] rfl rfl fun _ _ => rfl

/-- The marks that also end what stands in front of them. -/
def separators : List Char := ['(', ')', '[', ']', '\x7d', ',', ':', ';']

theorem mem_marks_of_mem_separators {c : Char} (member : c ∈ separators) : c ∈ marks := by
  simp only [separators, List.mem_cons, List.not_mem_nil, or_false] at member
  rcases member with rfl | rfl | rfl | rfl | rfl | rfl | rfl | rfl <;> simp [marks]

theorem mem_delimiters_of_mem_separators {c : Char} (member : c ∈ separators) : c ∈ delimiters :=
  List.mem_cons_of_mem ' ' member

theorem scan_bang {rest : List Char} (equals : rest.head? ≠ some '=') :
    scan ('!' :: rest) = (scan rest).prepend [.fixed "!"] := by
  refine scan_lexeme [] rfl rfl ?_
  intro next member
  have other : next ≠ '=' := fun same => equals (same ▸ member)
  simp [Lexeme.continues, other]

/-- An equals sign at the front is a mark, or belongs to one. -/
theorem scan_equals (cs : List Char) : ∃ rest, ∃ mark ∈ ["=", "=="],
    scan ('=' :: cs) = (scan rest).prepend [.fixed mark] := by
  by_cases double : cs.head? = some '='
  · have done : Lexeme.cut '=' cs = .ok (⟨.operator, ['=', '=']⟩, cs.tail) := by
      rw [Lexeme.cut, if_neg (by decide), if_neg (by decide), if_neg (by simp), if_neg (by decide),
        if_neg (by decide), if_neg (by decide), if_pos ⟨rfl, double⟩]
    exact ⟨cs.tail, "==", by decide, scan_token_of_cut done rfl⟩
  · have done : Lexeme.cut '=' cs = .ok (⟨.operator, ['=']⟩, cs) := by
      rw [Lexeme.cut, if_neg (by decide), if_neg (by decide), if_neg (by simp), if_neg (by decide),
        if_neg (by decide), if_neg (by decide), if_neg fun both => double both.2, if_pos (by decide)]
    exact ⟨cs, "=", by decide, scan_token_of_cut done rfl⟩

/-- The words and marks that are written with a blank or another delimiter behind them. -/
def words : List String :=
  Token.keywords ++
    ["=", "==", "!=", "<", ">", "<=", ">=", "+", "-", "*", "/"]

theorem scan_word {word : String} (member : word ∈ words) {rest : List Char}
    (delimited : Delimited rest) :
    scan (word.toList ++ rest) = (scan rest).prepend [.fixed word] := by
  simp only [words, Token.keywords, List.cons_append, List.nil_append, List.mem_cons,
    List.not_mem_nil, or_false] at member
  rcases member with rfl | rfl | rfl | rfl | rfl | rfl | rfl | rfl | rfl | rfl | rfl | rfl | rfl |
    rfl | rfl | rfl | rfl | rfl | rfl | rfl <;>
    exact scan_lexeme _ rfl rfl (Lexeme.stops_of_delimited delimited (by decide))

end TokenStream

/-! ## Texts -/

/-- A character of a text as it is written. -/
def escaped (c : Char) : List Char := if c = '"' ∨ c = '\\' then ['\\', c] else [c]

theorem toList_renderText (value : String) :
    (renderText value).toList = '"' :: (value.toList.flatMap escaped ++ ['"']) := by
  simp only [renderText, String.toList_ofList]
  rfl

namespace Lexeme

/-- A written text ends at its own closing quote. -/
theorem cutText_escaped (value rest : List Char) :
    cutText (value.flatMap escaped ++ '"' :: rest) = some (value.flatMap escaped, rest) := by
  induction value with
  | nil => rfl
  | cons c value ih =>
      by_cases special : c = '"' ∨ c = '\\'
      · simp [escaped, special, cutText, ih]
      · have plain := not_or.mp special
        rw [List.flatMap_cons, escaped, if_neg special, List.append_assoc, List.singleton_append,
          cutText, ih]
        · rfl
        · exact plain.1
        · exact fun _ _ escape => absurd escape plain.2

theorem decode_escaped (value : List Char) : decode (value.flatMap escaped) = .ok value := by
  induction value with
  | nil => rfl
  | cons c value ih =>
      by_cases special : c = '"' ∨ c = '\\'
      · rw [List.flatMap_cons, escaped, if_pos special]
        have newline : c ≠ 'n' := by
          rintro rfl
          exact absurd special (by decide)
        have tab : c ≠ 't' := by
          rintro rfl
          exact absurd special (by decide)
        simp [decode, newline, tab, special, ih, Except.map]
      · have plain := not_or.mp special
        rw [List.flatMap_cons, escaped, if_neg special, List.singleton_append, decode, ih]
        · rfl
        · exact fun _ _ escape => absurd escape plain.2

end Lexeme

/-- A written text is cut again from its own characters. -/
theorem Lexeme.cut_renderText (value : String) :
    cut '"' (value.toList.flatMap escaped ++ ['"']) = .ok (⟨.text, (renderText value).toList⟩, []) := by
  rw [toList_renderText]
  exact cut_text _ (cutText_escaped value.toList [])

theorem Lexeme.token_renderText (line : Int) (value : String) :
    token line ⟨.text, (renderText value).toList⟩ = .ok (some ⟨.text, value, line⟩) := by
  simp [token, toList_renderText, decode_escaped, Except.map]

theorem TokenStream.scan_text (value : String) (rest : List Char) :
    scan ((renderText value).toList ++ rest) = (scan rest).prepend [⟨.text, value, 0⟩] := by
  rw [toList_renderText, List.cons_append]
  exact scan_lexeme _ (Lexeme.cut_renderText value) (Lexeme.token_renderText 0 value) fun _ _ => rfl

/-! ## Numbers and names -/

namespace Lexeme

/-- A lexeme that is cut again from its own characters. -/
def Again (lexeme : Lexeme) : Prop :=
  ∃ c cs, lexeme.chars = c :: cs ∧ cut c cs = .ok (lexeme, [])

/-- A run of characters of a class is all of itself. -/
theorem takeWhile_of_all {p : Char → Bool} {cs : List Char} (all : ∀ c ∈ cs, p c) :
    cs.takeWhile p = cs ∧ cs.dropWhile p = [] := by
  have took : (cs ++ []).takeWhile p = cs ++ [] := List.takeWhile_append_of_pos all
  have left : (cs ++ []).dropWhile p = [] := List.dropWhile_append_of_pos all
  rw [List.append_nil] at took left
  exact ⟨took, left⟩

theorem takeWhile_takeWhile (p : Char → Bool) (cs : List Char) :
    (cs.takeWhile p).takeWhile p = cs.takeWhile p ∧ (cs.takeWhile p).dropWhile p = [] :=
  takeWhile_of_all (List.all_eq_true.mp List.all_takeWhile)

theorem cutNumber_cutNumber (cs : List Char) : cutNumber (cutNumber cs).1 = ((cutNumber cs).1, []) := by
  obtain ⟨took, left⟩ := takeWhile_takeWhile Text.isDigit cs
  have whole : cutNumber (cs.takeWhile Text.isDigit) = (cs.takeWhile Text.isDigit, []) := by
    simp only [cutNumber, took, left]
  rw [cutNumber.eq_def cs]
  dsimp only
  split
  · rename_i d more _
    split
    · rename_i digit
      have point : ∀ next ∈ ('.' :: d :: more.takeWhile Text.isDigit).head?,
          Text.isDigit next = false := by
        rintro _ ⟨⟩
        decide
      obtain ⟨tookWhole, leftWhole⟩ := takeWhile_append_of_stop (cs.takeWhile Text.isDigit) point
      obtain ⟨tookMore, leftMore⟩ := takeWhile_takeWhile Text.isDigit more
      simp only [cutNumber, tookWhole, leftWhole, took, left, List.nil_append, digit, if_true, tookMore,
        leftMore]
    · exact whole
  · exact whole

/-- A number or a name is cut again from its own characters. -/
theorem again_of_cut {c : Char} {cs rest : List Char} {lexeme : Lexeme}
    (done : cut c cs = .ok (lexeme, rest)) (kind : lexeme.kind = .number ∨ lexeme.kind = .name) :
    lexeme.Again := by
  have comment {ds : List Char} (first : Text.isDigit c ∨ isNameStart c) :
      ¬ (c = '/' ∧ ds.head? = some '/') := by
    rintro ⟨rfl, -⟩
    exact absurd first (by decide)
  unfold cut at done
  split at done
  · cases done
    exact absurd kind (by simp)
  rename_i newline
  split at done
  · cases done
    exact absurd kind (by simp)
  rename_i blank
  split at done
  · cases done
    exact absurd kind (by simp)
  split at done
  · rename_i digit
    cases done
    refine ⟨c, _, rfl, ?_⟩
    rw [cut, if_neg newline, if_neg blank, if_neg (comment (.inl digit)), if_pos digit,
      cutNumber_cutNumber]
  rename_i digit
  split at done
  · split at done
    · cases done
      exact absurd kind (by simp)
    · cases done
  rename_i quote
  split at done
  · rename_i start
    cases done
    obtain ⟨took, left⟩ := takeWhile_takeWhile isNameChar cs
    refine ⟨c, _, rfl, ?_⟩
    rw [cut, if_neg newline, if_neg blank, if_neg (comment (.inr start)), if_neg digit, if_neg quote,
      if_pos start, took, left]
  split at done
  · cases done
    exact absurd kind (by simp)
  split at done
  · cases done
    exact absurd kind (by simp)
  · cases done

end Lexeme

/-- A number or name whose text is cut into itself again. -/
def Token.Verbatim (t : Token) : Prop :=
  match t.kind with
  | .number => (⟨.number, t.text.toList⟩ : Lexeme).Again
  | .name => (⟨.name, t.text.toList⟩ : Lexeme).Again ∧ t.text ∉ keywords
  | _ => True

/-- What a source yields can be written as it stands. -/
theorem TokenStream.verbatim_ofSource {source : String} :
    ∀ t ∈ (ofSource source).tokens, t.Verbatim := by
  intro t member
  obtain ⟨lexeme, line, c, cs, rest, done, made⟩ := exists_cut_of_mem_ofSource member
  have again := Lexeme.again_of_cut done
  unfold Lexeme.token at made
  obtain ⟨kind, chars⟩ := lexeme
  cases kind with
  | newline | blank | comment => cases made
  | number =>
      cases made
      simpa [Token.Verbatim] using again
  | text =>
      simp only at made
      cases decoded : Lexeme.decode (chars.drop 1).dropLast with
      | error fault =>
          rw [decoded] at made
          cases made
      | ok value =>
          rw [decoded] at made
          cases made
          trivial
  | name =>
      cases made
      by_cases keyword : String.ofList chars ∈ Token.keywords
      · simp [Token.Verbatim, keyword]
      · simpa [Token.Verbatim, keyword] using again
  | operator =>
      cases made
      trivial

/-- A number or a name of a source, in front of a delimiter, is read as itself. -/
theorem TokenStream.scan_verbatim {t : Token} (verbatim : t.Verbatim)
    (kind : t.kind = .number ∨ t.kind = .name) {rest : List Char} (delimited : Delimited rest) :
    scan (t.text.toList ++ rest) = (scan rest).prepend [t.unlined] := by
  obtain ⟨label, text, line⟩ := t
  rcases kind with rfl | rfl
  · obtain ⟨c, cs, same, whole⟩ := verbatim
    simp only at same
    rw [same, List.cons_append]
    refine scan_lexeme _ whole ?_ (Lexeme.stops_of_delimited delimited (by simp))
    simp [Lexeme.token, Token.unlined]
  · obtain ⟨⟨c, cs, same, whole⟩, keyword⟩ := verbatim
    simp only at same
    rw [same, List.cons_append]
    refine scan_lexeme _ whole ?_ (Lexeme.stops_of_delimited delimited (by simp))
    simpa [Lexeme.token, Token.unlined] using keyword

end Treewalk

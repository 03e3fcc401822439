import Treewalk.Proofs.Source.Scan

/-!
# Tokens written out

A row of tokens is written with a blank behind each token, texts between quotes and all others as they
stand. What a source yields survives this: a token is written as a lexeme that is cut from its own
characters and makes the token again (`Token.WrittenAs`), and a blank goes on with no such lexeme, so two
neighbours neither join nor break. Lines change, since only the newlines inside texts are written.
-/

namespace Treewalk

namespace Token

/-- A token as source text. -/
def written (t : Token) : String :=
  match t.kind with
  | .text => renderText t.text
  | _ => t.text

/-- The newlines in a text; no other token is written with one. -/
def newlines (t : Token) : Nat :=
  match t.kind with
  | .text => t.text.toList.count '\n'
  | _ => 0

/-- A row of tokens as source text, with a blank behind each of them. -/
def writtenRow (row : List Token) : String :=
  String.join (row.map fun t => t.written ++ " ")

/-- The newlines in the texts of a row. -/
def newlinesIn (row : List Token) : Nat := (row.map newlines).sum

/-- A row of tokens on the lines that the texts in front of them tell, if it starts on `line`. -/
def relined (line : Int) (row : List Token) : List Token :=
  row.mapIdx fun i t => { t with line := line + newlinesIn (row.take i) }

theorem relined_cons (line : Int) (t : Token) (row : List Token) :
    relined line (t :: row) = { t with line } :: relined (line + t.newlines) row := by
  simp [relined, newlinesIn, Int.add_assoc]

/-! ## The lexeme of a written token -/

/-- The lexeme that a token is written as. -/
structure WrittenAs (t : Token) (lexeme : Lexeme) : Prop where
  chars : t.written.toList = lexeme.chars
  again : lexeme.Again
  solid : lexeme.kind ≠ .blank ∧ lexeme.kind ≠ .comment
  token : ∀ line, lexeme.token line = .ok (some { t with line })
  newlines : lexeme.newlines = t.newlines

end Token

namespace Lexeme

/-- A newline belongs to texts and layout only. -/
theorem newlines_eq_zero {lexeme : Lexeme} (belongs : lexeme.kind.Matches lexeme.chars)
    (kind : lexeme.kind = .number ∨ lexeme.kind = .name ∨ lexeme.kind = .operator) :
    lexeme.newlines = 0 := by
  refine List.count_eq_zero.mpr fun member => ?_
  obtain ⟨label, chars⟩ := lexeme
  simp only at belongs kind member
  rcases kind with rfl | rfl | rfl
  · obtain ⟨whole, digits, rfl | ⟨fraction, more, rfl⟩⟩ := belongs
    · exact absurd (digits.2 _ member) (by decide)
    · rcases List.mem_append.mp member with inside | inside
      · exact absurd (digits.2 _ inside) (by decide)
      · rcases List.mem_cons.mp inside with point | inside
        · exact absurd point (by decide)
        · exact absurd (more.2 _ inside) (by decide)
  · obtain ⟨c, more, rfl, start, others⟩ := belongs
    rcases List.mem_cons.mp member with rfl | inside
    · exact absurd start (by decide)
    · exact absurd (others _ inside) (by decide)
  · rcases operator_cases belongs with ⟨c, single, rfl⟩ | ⟨c, double, rfl⟩
    · rw [← List.mem_singleton.mp member] at single
      exact absurd single (by decide)
    · rcases List.mem_cons.mp member with rfl | inside
      · exact absurd double (by decide)
      · exact absurd (List.mem_singleton.mp inside) (by decide)

theorem again_operator {chars : List Char} (belongs : LexemeClass.operator.Matches chars) :
    (⟨.operator, chars⟩ : Lexeme).Again := by
  rcases operator_cases belongs with ⟨c, single, rfl⟩ | ⟨c, double, rfl⟩
  · refine ⟨c, [], rfl, ?_⟩
    simp only [isOperator, List.mem_cons, List.not_mem_nil, or_false, decide_eq_true_eq] at single
    rcases single with rfl | rfl | rfl | rfl | rfl | rfl | rfl | rfl | rfl | rfl | rfl | rfl | rfl |
      rfl | rfl | rfl | rfl <;> rfl
  · exact ⟨c, ['='], rfl, cut_double [] double⟩

end Lexeme

/-- Quotes and backslashes are written with a backslash, which is no newline. -/
theorem count_newline_escaped (value : List Char) :
    (value.flatMap escaped).count '\n' = value.count '\n' := by
  induction value with
  | nil => rfl
  | cons c value ih =>
      rw [List.flatMap_cons, List.count_append, ih]
      by_cases special : c = '"' ∨ c = '\\'
      · rcases special with rfl | rfl <;> simp [escaped]
      · rw [escaped, if_neg special, List.count_cons, List.count_cons, List.count_nil]
        omega

namespace Token

theorem written_text (value : String) (line : Int) :
    (⟨.text, value, line⟩ : Token).written = renderText value := rfl

theorem writtenAs_text (value : String) (line : Int) :
    (⟨.text, value, line⟩ : Token).WrittenAs ⟨.text, (renderText value).toList⟩ where
  chars := by rw [written_text]
  again := ⟨'"', _, by rw [toList_renderText], Lexeme.cut_renderText value⟩
  solid := by simp
  token other := Lexeme.token_renderText other value
  newlines := by simp [Lexeme.newlines, newlines, toList_renderText, count_newline_escaped]

/-- Every token of a source is written as a lexeme. All but texts are written as the lexeme that they
were cut as. -/
theorem exists_writtenAs {source : String} {t : Token}
    (member : t ∈ (TokenStream.ofSource source).tokens) : ∃ lexeme, t.WrittenAs lexeme := by
  obtain ⟨lexeme, line, c, cs, rest, done, made⟩ := TokenStream.exists_cut_of_mem_ofSource member
  have belongs := Lexeme.matches_of_cut done
  have again := Lexeme.again_of_cut done
  have oneLine := Lexeme.newlines_eq_zero belongs
  obtain ⟨kind, chars⟩ := lexeme
  cases kind with
  | newline | blank | comment => cases made
  | number =>
      cases made
      exact ⟨_, String.toList_ofList, again (.inl rfl), by simp, fun _ => rfl, oneLine (.inl rfl)⟩
  | operator =>
      cases made
      exact ⟨_, String.toList_ofList, Lexeme.again_operator belongs, by simp, fun _ => rfl,
        oneLine (.inr (.inr rfl))⟩
  | name =>
      cases made
      refine ⟨_, ?_, again (.inr rfl), by simp, fun _ => rfl, (oneLine (.inr (.inl rfl))).trans ?_⟩
      all_goals by_cases keyword : String.ofList chars ∈ keywords
      all_goals simp [written, newlines, keyword]
  | text =>
      simp only [Lexeme.token] at made
      cases decoded : Lexeme.decode (chars.drop 1).dropLast with
      | error fault =>
          rw [decoded] at made
          cases made
      | ok value =>
          rw [decoded] at made
          cases made
          exact ⟨_, writtenAs_text _ line⟩

end Token

/-! ## The stream of a written row -/

namespace TokenStream

/-- A written token in front of what does not go on with it. -/
theorem ofChars_written {t : Token} {lexeme : Lexeme} (writtenAs : t.WrittenAs lexeme)
    {rest : List Char} (stops : lexeme.Stops rest) (line : Int) :
    ofChars line (t.written.toList ++ rest) =
      (ofChars (line + t.newlines) rest).prepend [{ t with line }] := by
  obtain ⟨c, cs, same, whole⟩ := writtenAs.again
  rw [writtenAs.chars, same, List.cons_append, ofChars_cons, Lexeme.cut_append_of_stops whole stops]
  simp [writtenAs.token, writtenAs.newlines]

theorem ofChars_writtenRow {row : List Token} (all : ∀ t ∈ row, ∃ lexeme, t.WrittenAs lexeme)
    (line : Int) : ofChars line (Token.writtenRow row).toList =
      ⟨Token.relined line row, .eof (line + Token.newlinesIn row)⟩ := by
  induction row generalizing line with
  | nil => simp [Token.writtenRow, Token.relined, Token.newlinesIn, ofChars_nil]
  | cons t row ih =>
      obtain ⟨lexeme, writtenAs⟩ := all t List.mem_cons_self
      have later := ih (fun u member => all u (List.mem_cons_of_mem t member)) (line + t.newlines)
      have text : (Token.writtenRow (t :: row)).toList =
          t.written.toList ++ ' ' :: (Token.writtenRow row).toList := by
        simp [Token.writtenRow]
      -- Only layout goes on with a blank, and no token is written as layout.
      have stops : lexeme.Stops (' ' :: (Token.writtenRow row).toList) :=
        Lexeme.stops_of_delimited (delimited_cons (by decide) _) writtenAs.solid
      rw [text, ofChars_written writtenAs stops, ofChars_space, later, Token.relined_cons]
      simp [prepend, Token.newlinesIn, Int.add_assoc]

end TokenStream

/-- Tokens survive being written out and lexed again. Whatever tokens a source yields, also in front of an
error or when they spell no program, the text that is made of them yields the same kinds and texts in the
same order and then the end of input, each on line one more than the newlines in the texts in front of it.
And any text at all, written between quotes, is one token with that text. -/
theorem tokens_survive_writing :
    (∀ source : String,
      TokenStream.ofSource (Token.writtenRow (TokenStream.ofSource source).tokens) =
        ⟨(TokenStream.ofSource source).tokens.mapIdx fun i t =>
          { t with line := 1 + Token.newlinesIn ((TokenStream.ofSource source).tokens.take i) },
         .eof (1 + Token.newlinesIn (TokenStream.ofSource source).tokens)⟩) ∧
    ∀ (line : Int) (value : String),
      TokenStream.ofSource (Node.text line value).render =
        ⟨[⟨.text, value, 1⟩], .eof (1 + value.toList.count '\n')⟩ := by
  refine ⟨fun source => ?_, fun line value => ?_⟩
  · rw [TokenStream.ofSource_eq_ofChars (Token.writtenRow _)]
    exact TokenStream.ofChars_writtenRow (fun t member => Token.exists_writtenAs member) 1
  · have stops : (⟨.text, (renderText value).toList⟩ : Lexeme).Stops [] := by
      rintro next ⟨⟩
    have alone := TokenStream.ofChars_written (Token.writtenAs_text value line) stops 1
    rw [List.append_nil, TokenStream.ofChars_nil] at alone
    exact alone

end Treewalk

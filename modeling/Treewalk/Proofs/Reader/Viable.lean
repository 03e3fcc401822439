import Treewalk.Proofs.Reader.Exact

/-!
# Errors come at the first hopeless token

Whatever the reader has taken without an error can be gone on with to a program: what is open in a
phase can be closed, from the inside out (`Phase.completable`). What the reader has refused stays
refused, whatever follows. So the reader stops at the first token behind which no program is left, and
its error depends on nothing further on, be it tokens or an error of the source.
-/

namespace Treewalk

/-! ## Completing a program -/

/-- An operator token. -/
def Token.mark (text : String) : Token := ⟨.operator, text, 0⟩

/-- A token for a place where a name or any expression must stand. -/
def Token.filler : Token := ⟨.name, "x", 0⟩

/-- Marks that end the expression in front of them, whatever place it stands in. -/
def closers : List String := [")", "]", ":", "\x7b", "\x7d"]

namespace Phase

/-- A row of tokens of a source that leads from a phase to the end of a program. -/
structure CompletedBy (phase : Phase) (row : List Token) : Prop where
  lexical : ∀ t ∈ row, t.Lexical ∧ t.kind ≠ .eof
  done : ∀ line, ∃ program, phase.feedAll (row ++ [.eof line]) = .ok (.done program)

/-- A phase from which a program can be completed. -/
def Completable (phase : Phase) : Prop := ∃ row, phase.CompletedBy row

/-- The same by tokens of which the first may follow any expression, so that it ends the one in front
of it. -/
def Closable (phase : Phase) : Prop :=
  ∃ row, phase.CompletedBy row ∧ ∀ t ∈ row.head?, t.Follows 0

variable {phase after : Phase}

theorem Closable.completable (closable : phase.Closable) : phase.Completable := by
  obtain ⟨row, completed, -⟩ := closable
  exact ⟨row, completed⟩

theorem CompletedBy.cons {t : Token} {row : List Token} (lexical : t.Lexical ∧ t.kind ≠ .eof)
    (fed : phase.feed t = .ok after) (completed : after.CompletedBy row) :
    phase.CompletedBy (t :: row) := by
  refine ⟨List.forall_mem_cons.mpr ⟨lexical, completed.lexical⟩, ?_⟩
  intro line
  rw [List.cons_append, feedAll_of_feed fed]
  exact completed.done line

/-- A mark that leads on to a phase from which a program can be completed. -/
theorem Completable.mark (text : String) (completable : after.Completable)
    (fed : phase.feed (.mark text) = .ok after) (operator : text ∈ operatorTexts) :
    phase.Completable := by
  obtain ⟨row, completed⟩ := completable
  exact ⟨.mark text :: row, completed.cons ⟨operator, by simp [Token.mark]⟩ fed⟩

theorem Completable.filler (completable : after.Completable)
    (fed : phase.feed .filler = .ok after) : phase.Completable := by
  obtain ⟨row, completed⟩ := completable
  exact ⟨.filler :: row, completed.cons ⟨trivial, by simp [Token.filler]⟩ fed⟩

/-- A mark that ends the expression in front of it. -/
theorem Completable.close (text : String) (completable : after.Completable)
    (fed : phase.feed (.mark text) = .ok after) (closer : text ∈ closers) : phase.Closable := by
  have operators : ∀ text ∈ closers, text ∈ operatorTexts := by decide
  have flat : ∀ text ∈ closers, operatorLevel text = 0 := by decide
  obtain ⟨row, completed⟩ := completable
  refine ⟨.mark text :: row, completed.cons ⟨operators text closer, by simp [Token.mark]⟩ fed, ?_⟩
  rintro t ⟨⟩
  refine Token.follows_of_spells (Token.spells_iff.mpr ⟨.inl rfl, rfl⟩) ?_ ?_
  · rw [Token.mark, flat text closer]
    decide
  · rintro rfl
    exact absurd closer (by decide)

/-- The first token goes on from one phase as it does from the other. -/
theorem Closable.congr (closable : after.Closable)
    (same : ∀ t : Token, t.Follows 0 → phase.feed t = after.feed t) : phase.Closable := by
  obtain ⟨row, completed, first⟩ := closable
  refine ⟨row, ⟨completed.lexical, ?_⟩, first⟩
  intro line
  obtain ⟨program, done⟩ := completed.done line
  refine ⟨program, ?_⟩
  cases row with
  | nil =>
      rw [← done]
      exact feedAll_congr (same _ (Token.Ends.follows (.inr rfl)))
  | cons t row =>
      rw [← done]
      exact feedAll_congr (same t (first t rfl))

end Phase

theorem Token.Follows.level_eq_zero {t : Token} (follows : t.Follows 0) : t.level = 0 :=
  Nat.le_zero.mp (follows.level_le (by decide))

theorem Phase.closable_program (line : Int) (before : List Node) :
    (Phase.statement (.program line before)).Closable := by
  refine ⟨[], ⟨by simp, fun eof => ⟨.program line before, ?_⟩⟩, by simp⟩
  exact feedAll_of_feed (by simp [feed, ListSlot.next, Token.spells, Token.eof])

mutual

/-- Behind an expression, all that is open can be closed. -/
theorem ExprSlot.closable (slot : ExprSlot) (left : Node) : (Phase.operator left slot).Closable := by
  match slot with
  | .statement line list =>
      refine (list.closable [.expression line left]).congr fun t follows => ?_
      simp [Phase.feed, ExprSlot.next, follows.level_eq_zero, ListSlot.addAll]
  | .binding line name list =>
      refine (list.closable [.binding line name left]).congr fun t follows => ?_
      simp [Phase.feed, ExprSlot.next, follows.level_eq_zero, ListSlot.addAll]
  | .result line list =>
      refine (list.closable [.result line (some left)]).congr fun t follows => ?_
      simp [Phase.feed, ExprSlot.next, follows.level_eq_zero, ListSlot.addAll]
  | .unary line operator outer =>
      refine (outer.closable (.unary line operator left)).congr fun t follows => ?_
      exact Phase.feed_operator_unary left (by simp [follows.level_eq_zero])
  | .binary line before operator outer =>
      refine (outer.closable (.joined line before operator left)).congr fun t follows => ?_
      exact Phase.feed_operator_binary left (by simp [follows.level_eq_zero])
  | .group outer => exact (outer.closable left).completable.close ")" rfl (by decide)
  | .argument line callee before outer =>
      exact (outer.closable (.call line callee (before ++ [left]))).completable.close ")" rfl
        (by decide)
  | .item line before outer =>
      exact (outer.closable (.array line (before ++ [left]))).completable.close "]" rfl (by decide)
  | .position line subject outer =>
      exact (outer.closable (.index line subject left)).completable.close "]" rfl (by decide)
  | .entryKey line before outer =>
      have pair := (outer.closable (.hash line (before ++ [(left, .identifier 0 "x")]))).completable
      have value : (Phase.operand (.entryValue line before left outer)).Completable :=
        (pair.mark "\x7d" rfl (by decide)).filler rfl
      exact value.close ":" rfl (by decide)
  | .entryValue line before key outer =>
      exact (outer.closable (.hash line (before ++ [(key, left)]))).completable.close "\x7d" rfl
        (by decide)
  | .condition line outer =>
      have conditional := outer.closable (.conditional line left (.block 0 []) none)
      have block : (Phase.afterThen line left (.block 0 []) outer).Closable :=
        conditional.congr fun t follows => by simp [Phase.feed, follows.2]
      exact (block.completable.mark "\x7d" rfl (by decide)).close "\x7b" rfl (by decide)

/-- Behind a conditional. -/
theorem IfSlot.closable (slot : IfSlot) (node : Node) :
    (Phase.operator (slot.fill node).1 (slot.fill node).2).Closable := by
  match slot with
  | .operand outer => exact outer.closable node
  | .elseIf line condition consequence elseLine outer => exact outer.closable _

/-- Behind a block. -/
theorem BlockSlot.closable (slot : BlockSlot) (node : Node) : (slot.fill node).Closable := by
  match slot with
  | .thenBlock line condition outer =>
      refine (outer.closable (.conditional line condition node none)).congr fun t follows => ?_
      simp [BlockSlot.fill, Phase.feed, follows.2]
  | .elseBlock line condition consequence outer => exact outer.closable _
  | .body line parameters outer => exact outer.closable _

/-- Behind a statement. -/
theorem ListSlot.closable (list : ListSlot) (more : List Node) :
    (Phase.statement (list.addAll more)).Closable := by
  match list with
  | .program line before =>
      rw [Phrase.addAll_program]
      exact Phase.closable_program line (before ++ more)
  | .block line before outer =>
      rw [Phrase.addAll_block]
      exact (outer.closable (.block line (before ++ more))).completable.close "\x7d" rfl (by decide)

end

/-- From wherever the reader stands, a program can be completed. -/
theorem Phase.completable (phase : Phase) : phase.Completable := by
  -- An empty block, and what follows it.
  have block {phase : Phase} {slot : BlockSlot}
      (opens : phase.feed (.mark "\x7b") = .ok (.statement (.block 0 [] slot))) :
      phase.Completable :=
    ((slot.closable (.block 0 [])).completable.mark "\x7d" rfl (by decide)).mark "\x7b" opens
      (by decide)
  have function (line : Int) (parameters : List Name) (outer : ExprSlot) :
      (Phase.opening (.body line parameters outer)).Completable := block rfl
  have operand (slot : ExprSlot) : (Phase.operand slot).Completable :=
    (slot.closable (.identifier 0 "x")).completable.filler rfl
  have binding (line : Int) (name : Name) (list : ListSlot) :
      (Phase.bindingEquals line name list).Completable :=
    (operand (.binding line name list)).mark "=" rfl (by decide)
  match phase with
  | .start => exact ⟨[], by simp, fun line => ⟨.program line [], rfl⟩⟩
  | .done program => exact ⟨[], by simp, fun line => ⟨program, rfl⟩⟩
  | .statement list => exact (list.closable []).completable
  | .operand slot => exact operand slot
  | .operandOrEnd slot =>
      refine (slot.closable (.identifier 0 "x")).completable.filler ?_
      cases slot <;> rfl
  | .operator left slot => exact (slot.closable left).completable
  | .bindingName line list => exact (binding line ⟨0, "x"⟩ list).filler rfl
  | .bindingEquals line name list => exact binding line name list
  | .resultOrEnd line list =>
      exact ((ExprSlot.result line list).closable (.identifier 0 "x")).completable.filler rfl
  | .parameters line outer =>
      exact ((function line [] outer).mark ")" rfl (by decide)).mark "(" rfl (by decide)
  | .parameterOrEnd line before outer => exact (function line before outer).mark ")" rfl (by decide)
  | .parameterEnd line before outer => exact (function line before outer).mark ")" rfl (by decide)
  | .opening slot => exact block rfl
  | .afterThen line condition consequence outer =>
      have conditional := outer.closable (.conditional line condition consequence none)
      exact (conditional.congr fun t follows => by simp [feed, follows.2]).completable
  | .afterElse line condition consequence elseLine outer => exact block rfl

/-! ## Refusals -/

/-- A step that stops only for a fault on a line. -/
def Step.Malformed (step : Step) : Prop :=
  ∀ e, step = .error e → ∃ line fault, e = .malformed line fault

namespace Step.Malformed

theorem ok {phase : Phase} : Malformed (.ok phase) := nofun

theorem stop {line : Int} {fault : ReadFault} : Malformed (.error (.malformed line fault)) := by
  rintro e ⟨⟩
  exact ⟨line, fault, rfl⟩

theorem ite {condition : Prop} [Decidable condition] {first second : Step} (one : Malformed first)
    (two : Malformed second) : Malformed (if condition then first else second) := by
  split
  · exact one
  · exact two

end Step.Malformed

open Step

/-- The number tokens of a source are numerals, and no other token is taken for a number. -/
theorem Token.Lexical.isSome_ofText? {t : Token} (lexical : t.Lexical) (more : t.kind ≠ .eof)
    (number : t.opener = "number") : (Number.ofText? t.text).isSome := by
  rcases lexical.opener_cases more with
    ⟨kind, -⟩ | ⟨-, opener⟩ | ⟨-, opener⟩ | ⟨-, member⟩
  · rw [Lexical, kind] at lexical
    exact lexical
  · exact absurd (number.symm.trans opener) (by decide)
  · exact absurd (number.symm.trans opener) (by decide)
  · rw [number] at member
    exact absurd member (by decide)

theorem ExprSlot.malformed_begin (slot : ExprSlot) {t : Token} (lexical : t.Lexical) :
    Malformed (slot.begin t) := by
  unfold begin
  split
  · exact .stop
  rename_i more
  split
  case h_1 number =>
    have numeral := lexical.isSome_ofText? more number
    split
    · exact .ok
    · rename_i none
      rw [none] at numeral
      cases numeral
  case h_13 => exact .stop
  all_goals exact .ok

theorem ListSlot.malformed_next (list : ListSlot) {t : Token} (lexical : t.Lexical) :
    Malformed (list.next t) := by
  have statement : Malformed (list.beginStatement t) :=
    .ite .ok (.ite .ok (ExprSlot.malformed_begin _ lexical))
  refine .ite .ok ?_
  cases list with
  | program line before => exact .ite .ok statement
  | block line before outer => exact .ite .ok (.ite .stop statement)

theorem ExprSlot.malformed_next (slot : ExprSlot) (left : Node) {t : Token} (lexical : t.Lexical) :
    Malformed (slot.next left t) := by
  rw [next.eq_def]
  refine .ite .ok ?_
  match slot with
  | .statement line list | .binding line name list | .result line list =>
      exact ListSlot.malformed_next _ lexical
  | .unary line operator outer => exact outer.malformed_next _ lexical
  | .binary line before operator outer => exact outer.malformed_next _ lexical
  | .group outer | .entryKey line before outer | .position line subject outer => exact .ite .ok .stop
  | .condition line outer => exact .ite .ok .stop
  | .argument line callee before outer | .item line before outer
  | .entryValue line before key outer => exact .ite .ok (.ite .ok .stop)

/-- The reader refuses a token of a source only for a fault on a line. -/
theorem Phase.malformed_feed (phase : Phase) {t : Token} (lexical : t.Lexical) :
    Malformed (phase.feed t) := by
  cases phase with
  | start | statement => exact ListSlot.malformed_next _ lexical
  | operand slot => exact slot.malformed_begin lexical
  | operandOrEnd slot =>
      simp only [feed]
      split
      · exact .ok
      · exact slot.malformed_begin lexical
  | operator left slot => exact slot.malformed_next left lexical
  | bindingName | bindingEquals | parameters | opening => exact .ite .ok .stop
  | resultOrEnd line list =>
      exact .ite (ListSlot.malformed_next _ lexical) (ExprSlot.malformed_begin _ lexical)
  | parameterOrEnd | parameterEnd => exact .ite .ok (.ite .ok .stop)
  | afterThen => exact .ite .ok (ExprSlot.malformed_next _ _ lexical)
  | afterElse => exact .ite .ok (.ite .ok .stop)
  | done => exact .ok

theorem Phase.malformed_feedAll (phase : Phase) {row : List Token} (lexical : ∀ t ∈ row, t.Lexical) :
    Malformed (phase.feedAll row) := by
  induction row generalizing phase with
  | nil => exact .ok
  | cons t row ih =>
      rw [feedAll_cons]
      cases step : phase.feed t with
      | error e =>
          obtain ⟨line, fault, rfl⟩ := phase.malformed_feed (lexical t List.mem_cons_self) e step
          exact .stop
      | ok after => exact ih after fun u member => lexical u (List.mem_cons_of_mem t member)

/-- A source that cannot be read has a fault on a line. -/
theorem malformed_of_parse {source : String} {e : ReadError} (refused : parse source = .error e) :
    ∃ line fault, e = .malformed line fault := by
  unfold parse TokenStream.parse at refused
  split at refused
  case h_1 other taken =>
    cases refused
    have lexical : ∀ t ∈ (TokenStream.ofSource source).tokens, t.Lexical :=
      fun t member => (TokenStream.lexical_ofSource source t member).1
    exact Phase.malformed_feedAll _ lexical e taken
  case h_2 phase _ =>
    split at refused
    case h_1 line _ =>
      unfold Phase.finish at refused
      split at refused
      · cases refused
      · cases refused
        exact ⟨_, _, rfl⟩
      · rename_i step
        cases refused
        exact phase.malformed_feed (t := .eof line) trivial e step
    case h_2 =>
      cases refused
      exact ⟨_, _, rfl⟩

/-- A stream that starts with tokens which the reader refuses is refused for the same reason. -/
theorem TokenStream.parse_of_refused {stream : TokenStream} {tokens : List Token} {e : ReadError}
    (refused : Phase.start.feedAll tokens = .error e) (starts : tokens <+: stream.tokens) :
    stream.parse = .error e := by
  obtain ⟨more, same⟩ := starts
  unfold parse
  rw [← same, Phase.feedAll_append, refused]
  rfl

/-! ## The first hopeless token -/

theorem TokenStream.tokens_ofTokens_append {tokens : List Token}
    (ongoing : ∀ t ∈ tokens, t.kind ≠ .eof) (more : List Token) :
    (ofTokens (tokens ++ more)).tokens = tokens ++ (ofTokens more).tokens := by
  simp only [ofTokens]
  exact List.takeWhile_append_of_pos fun t member => by simpa using ongoing t member

/-- A row of tokens that tokens of a source can complete to a program. -/
def Viable (tokens : List Token) : Prop :=
  ∃ more program, (∀ t ∈ more, t.Lexical ∧ t.kind ≠ .eof) ∧
    (TokenStream.ofTokens (tokens ++ more)).parse = .ok program

/-- A row of tokens for which the reader stops with one and the same error, whatever tokens follow it
and whatever follows it in a source. -/
structure Refused (tokens : List Token) (e : ReadError) : Prop where
  rows : ∀ more : List Token, (TokenStream.ofTokens (tokens ++ more)).parse = .error e
  sources : ∀ source, tokens <+: (TokenStream.ofSource source).tokens → parse source = .error e

theorem refused_of_feedAll {tokens : List Token} {e : ReadError}
    (ongoing : ∀ t ∈ tokens, t.kind ≠ .eof) (refused : Phase.start.feedAll tokens = .error e) :
    Refused tokens e := by
  refine ⟨fun more => ?_, fun source starts => TokenStream.parse_of_refused refused starts⟩
  refine TokenStream.parse_of_refused refused ?_
  rw [TokenStream.tokens_ofTokens_append ongoing]
  exact List.prefix_append ..

theorem viable_of_feedAll {tokens : List Token} {phase : Phase} (ongoing : ∀ t ∈ tokens, t.kind ≠ .eof)
    (taken : Phase.start.feedAll tokens = .ok phase) : Viable tokens := by
  obtain ⟨more, lexical, done⟩ := phase.completable
  obtain ⟨line, ending⟩ : ∃ line, (TokenStream.ofTokens (tokens ++ more)).ending = .eof line :=
    ⟨_, rfl⟩
  obtain ⟨program, fed⟩ := done line
  refine ⟨more, program, lexical, TokenStream.parse_eq_ok_iff.mpr ⟨line, ending, ?_⟩⟩
  have all : (TokenStream.ofTokens more).tokens = more := by
    simpa [TokenStream.ofTokens] using
      TokenStream.tokens_ofTokens_append (fun t member => (lexical t member).2) []
  rw [TokenStream.tokens_ofTokens_append ongoing, all, List.append_assoc, Phase.feedAll_append, taken]
  exact fed

/-- Errors come at the first hopeless token, and lazily. A row of tokens of a source can be completed
to a program, or the reader stops at it with one error on a line, whatever follows. So of a source that
has an error of its own behind its tokens, that error is reported if the tokens can be completed, and
otherwise the one for which the reader stops at the tokens, which any source that starts with them
shares. -/
theorem error_at_first_hopeless_token :
    (∀ tokens : List Token, (∀ t ∈ tokens, t.Lexical ∧ t.kind ≠ .eof) →
      Viable tokens ∨ ∃ line fault, Refused tokens (.malformed line fault)) ∧
    (∀ (source : String) (line : Int) (fault : ReadFault),
      (TokenStream.ofSource source).ending = .fault line fault →
      (Viable (TokenStream.ofSource source).tokens →
        parse source = .error (.malformed line fault)) ∧
      (¬ Viable (TokenStream.ofSource source).tokens → ∃ place cause,
        parse source = .error (.malformed place cause) ∧
          Refused (TokenStream.ofSource source).tokens (.malformed place cause))) := by
  have decided (tokens : List Token) (lexical : ∀ t ∈ tokens, t.Lexical ∧ t.kind ≠ .eof) :
      Viable tokens ∨ ∃ line fault, Refused tokens (.malformed line fault) := by
    have ongoing : ∀ t ∈ tokens, t.kind ≠ .eof := fun t member => (lexical t member).2
    cases taken : Phase.start.feedAll tokens with
    | ok phase => exact .inl (viable_of_feedAll ongoing taken)
    | error e =>
        obtain ⟨line, fault, rfl⟩ :=
          Phase.malformed_feedAll _ (fun t member => (lexical t member).1) e taken
        exact .inr ⟨line, fault, refused_of_feedAll ongoing taken⟩
  refine ⟨decided, fun source line fault ending => ⟨fun viable => ?_, fun hopeless => ?_⟩⟩
  · have ongoing : ∀ t ∈ (TokenStream.ofSource source).tokens, t.kind ≠ .eof :=
      fun t member => (TokenStream.lexical_ofSource source t member).2
    obtain ⟨more, program, -, read⟩ := viable
    unfold parse TokenStream.parse
    cases taken : Phase.start.feedAll (TokenStream.ofSource source).tokens with
    | ok phase => rw [ending]
    | error e =>
        rw [(refused_of_feedAll ongoing taken).rows more] at read
        cases read
  · obtain viable | ⟨place, cause, refused⟩ := decided _ (TokenStream.lexical_ofSource source)
    · exact absurd viable hopeless
    · exact ⟨place, cause, refused.sources source (List.prefix_refl _), refused⟩

/-- A function that still lacks its body, and a binding that can get no name, each with an error of the
source behind it. -/
theorem error_at_first_hopeless_token_let :
    (Viable (TokenStream.ofSource "fn(x) @").tokens ∧
      parse "fn(x) @" = .error (.malformed 1 (.unexpectedCharacter '@'))) ∧
    (¬ Viable (TokenStream.ofSource "let\n5 \"").tokens ∧ ∃ place cause,
      parse "let\n5 \"" = .error (.malformed place cause) ∧
        Refused (TokenStream.ofSource "let\n5 \"").tokens (.malformed place cause)) := by
  have opened : (TokenStream.ofSource "fn(x) @").ending = .fault 1 (.unexpectedCharacter '@') := by
    cbv
  have closed : (TokenStream.ofTokens ((TokenStream.ofSource "fn(x) @").tokens ++
      [.mark "\x7b", .mark "\x7d"])).parse = .ok (.program 1 [.expression 1
        (.function 1 [⟨1, "x"⟩] (.block 0 []))]) := by
    cbv
  have viable : Viable (TokenStream.ofSource "fn(x) @").tokens :=
    ⟨_, _, by simp [Token.mark, Token.Lexical, operatorTexts], closed⟩
  have quoted : (TokenStream.ofSource "let\n5 \"").ending = .fault 2 .unterminatedText := by cbv
  have named : parse "let\n5 \"" = .error (.malformed 2 (.expectedName ⟨.number, "5", 2⟩)) := by cbv
  have hopeless : ¬ Viable (TokenStream.ofSource "let\n5 \"").tokens := by
    intro viable
    have reported := (error_at_first_hopeless_token.2 _ _ _ quoted).1 viable
    rw [named] at reported
    cases reported
  exact ⟨⟨viable, (error_at_first_hopeless_token.2 _ _ _ opened).1 viable⟩, hopeless,
    (error_at_first_hopeless_token.2 _ _ _ quoted).2 hopeless⟩

end Treewalk

import Treewalk.Proofs.Reader.Exact
import Treewalk.Proofs.Reader.Shift
import Treewalk.Proofs.Source.Pieces

/-!
# Two sources in one

Where a source may end, a semicolon may stand instead: whatever the reader decides at the end of input
it decides the same way at a semicolon (`Phase.feed_semicolon`). So a source that is read as a program
can be gone on with behind a newline and a semicolon, and the reader goes on as it would at the start of
a source, with the statements so far in front. `parse_joined` says this of whole sources, with every
line where it is in the second source when that starts as far down.
-/

namespace Treewalk

variable {t : Token} {line : Int} {program : Node}

/-! ## Semicolons and the end of input -/

/-- Only the statements of the program end with the input. -/
theorem ListSlot.eq_program_of_next {list : ListSlot}
    (ended : list.next (.eof line) = .ok (.done program)) :
    ∃ start before, list = .program start before ∧ program = .program start before := by
  cases list with
  | program start before =>
      cases ended
      exact ⟨start, before, rfl, rfl⟩
  | block => cases ended

theorem ListSlot.next_semicolon (list : ListSlot) (spelled : t.spells ";") :
    list.next t = .ok (.statement list) :=
  if_pos spelled

theorem ExprSlot.next_semicolon (slot : ExprSlot) {left : Node} (spelled : t.spells ";")
    (ended : slot.next left (.eof line) = .ok (.done program)) :
    ∃ start before, program = .program start before ∧
      slot.next left t = .ok (.statement (.program start before)) := by
  have flat : t.level = 0 := by
    rw [Token.level_of_spells spelled]
    rfl
  have flatEof : (Token.eof line).level = 0 := rfl
  have listed (list : ListSlot) (ended : list.next (.eof line) = .ok (.done program)) :
      ∃ start before, program = .program start before ∧
        list.next t = .ok (.statement (.program start before)) := by
    obtain ⟨start, before, rfl, rfl⟩ := list.eq_program_of_next ended
    exact ⟨start, before, rfl, ListSlot.next_semicolon _ spelled⟩
  rw [next.eq_def, flatEof, if_neg (by omega)] at ended
  rw [next.eq_def, flat, if_neg (by omega)]
  cases slot with
  | statement _ list | binding _ _ list | result _ list => exact listed _ ended
  | unary _ _ outer => exact outer.next_semicolon spelled ended
  | binary _ _ _ outer => exact outer.next_semicolon spelled ended
  | group | argument | item | entryKey | entryValue | position | condition => cases ended

/-- Where the input may end, a semicolon may stand, and leaves the statements as they are. -/
theorem Phase.feed_semicolon {phase : Phase} (spelled : t.spells ";")
    (ongoing : ∀ read, phase ≠ .done read)
    (ended : phase.feed (.eof line) = .ok (.done program)) : ∃ start,
      phase.feed t = .ok (.statement (.program start program.statements)) := by
  cases phase with
  | start =>
      cases ended
      exact ⟨t.line, ListSlot.next_semicolon _ spelled⟩
  | statement list =>
      obtain ⟨start, before, rfl, rfl⟩ := list.eq_program_of_next ended
      exact ⟨start, ListSlot.next_semicolon _ spelled⟩
  | operator left slot =>
      obtain ⟨start, before, rfl, fed⟩ := slot.next_semicolon spelled ended
      exact ⟨start, fed⟩
  | resultOrEnd _ list =>
      obtain ⟨start, before, added, rfl⟩ := (list.add _).eq_program_of_next ended
      refine ⟨start, ?_⟩
      rw [feed, spelled, Bool.true_or, Bool.true_or, if_pos rfl, added]
      exact ListSlot.next_semicolon _ spelled
  | afterThen _ condition consequence outer =>
      have other : t.spells "else" = false := Token.spells_eq_false spelled (by decide)
      obtain ⟨start, before, rfl, fed⟩ := ExprSlot.next_semicolon _ spelled ended
      refine ⟨start, ?_⟩
      rw [feed, other]
      exact fed
  | done read => exact absurd rfl (ongoing read)
  -- Everywhere else something is still open, and the end of input is an error.
  | operandOrEnd slot => cases slot <;> cases ended
  | _ => cases ended

/-- Without an end of input no program is completed. -/
theorem Phase.feedAll_ne_done {tokens : List Token} (lexical : ∀ t ∈ tokens, t.Lexical ∧ t.kind ≠ .eof)
    (read : Node) : Phase.start.feedAll tokens ≠ .ok (.done read) := by
  intro fed
  obtain ⟨_, _, _, nodes, ts, after, same, -, ends⟩ :=
    demands_of_feedAll (fun t member => (lexical t member).1) fed
  simp only [ListSlot.Ends] at ends
  obtain ⟨e, more, rfl, kind, -⟩ := ends
  exact (lexical e (by rw [same]; simp)).2 kind

/-! ## Joining -/

namespace TokenStream

theorem ofChars_newline (line : Int) (cs : List Char) :
    ofChars line ('\n' :: cs) = ofChars (line + 1) cs := by
  rw [ofChars_cons]
  rfl

theorem ofChars_newlines (line : Int) (count : Nat) (cs : List Char) :
    ofChars line (List.replicate count '\n' ++ cs) = ofChars (line + count) cs := by
  induction count generalizing line with
  | zero => simp
  | succ count ih =>
      rw [List.replicate_succ, List.cons_append, ofChars_newline, ih]
      congr 1
      omega

theorem ofChars_semicolon (line : Int) (cs : List Char) :
    ofChars line (';' :: cs) = (ofChars line cs).prepend [⟨.operator, ";", line⟩] := by
  have alone : Lexeme.cut ';' [] = .ok (⟨.operator, [';']⟩, []) := rfl
  have done : Lexeme.cut ';' cs = .ok (⟨.operator, [';']⟩, cs) :=
    Lexeme.cut_append_of_stops alone fun _ _ => rfl
  rw [ofChars_cons, done]
  exact congrArg (fun start => (ofChars start cs).prepend [⟨.operator, ";", line⟩]) (Int.add_zero line)

end TokenStream

/-- A source so far down as to follow another one and a newline. -/
def placedBelow (first second : String) : String :=
  String.ofList (List.replicate (first.toList.count '\n' + 1) '\n') ++ second

/-- The tokens of two sources with a semicolon between them. -/
theorem TokenStream.ofSource_joined {first : String} (second : String) {last : Int}
    (ending : (ofSource first).ending = .eof last) : ∃ line,
      ofSource (first ++ "\n;" ++ second) =
        (ofSource (placedBelow first second)).prepend
          ((ofSource first).tokens ++ [⟨.operator, ";", line⟩]) := by
  rw [ofSource_eq_ofChars] at ending
  obtain ⟨counted, joined⟩ := ofChars_append_newline ending (';' :: second.toList)
  have lower : ofSource (placedBelow first second) = ofChars (last + 1) second.toList := by
    rw [ofSource_eq_ofChars, placedBelow, String.toList_append, String.toList_ofList, ofChars_newlines,
      counted]
    congr 1
  refine ⟨last + 1, ?_⟩
  have chars : (first ++ "\n;" ++ second).toList = first.toList ++ '\n' :: ';' :: second.toList := by
    simp
  rw [lower, ofSource_eq_ofChars, chars, joined, ofChars_newline, ofChars_semicolon]
  simp [prepend, ofSource_eq_ofChars]

theorem Phase.readFrom_prepend (phase : Phase) {row : List Token} {after : Phase}
    (fed : phase.feedAll row = .ok after) (stream : TokenStream) :
    phase.readFrom (stream.prepend row) = after.readFrom stream := by
  unfold readFrom TokenStream.prepend
  rw [feedAll_append, fed]
  rfl

/-- A source with one numeral where an expression is due is read in two parts, in front of it and behind. -/
theorem parse_of_numeral {source numeral : String} {front back : List Token} {line last : Int}
    {value : Number} {phase : Phase} {slot : ExprSlot} {program : Node}
    (lexed : TokenStream.ofSource source = ⟨front ++ ⟨.number, numeral, line⟩ :: back, .eof last⟩)
    (led : Phase.start.feedAll front = .ok phase)
    (due : phase.feed ⟨.number, numeral, line⟩ = slot.begin ⟨.number, numeral, line⟩)
    (spells : Number.ofText? numeral = some value)
    (followed : (Phase.operator (.number line value numeral) slot).readFrom ⟨back, .eof last⟩ =
      .ok program) :
    parse source = .ok program := by
  have begun : slot.begin ⟨.number, numeral, line⟩ =
      .ok (.operator (.number line value numeral) slot) := by
    simp [ExprSlot.begin, Token.opener, spells]
  have taken : phase.feedAll [⟨.number, numeral, line⟩] =
      .ok (.operator (.number line value numeral) slot) := Phase.feedAll_of_feed (due.trans begun)
  calc parse source = Phase.start.readFrom (TokenStream.ofSource source) := rfl
    _ = phase.readFrom ⟨⟨.number, numeral, line⟩ :: back, .eof last⟩ := by
      rw [lexed]
      exact Phase.readFrom_prepend .start led ⟨⟨.number, numeral, line⟩ :: back, .eof last⟩
    _ = (Phase.operator (.number line value numeral) slot).readFrom ⟨back, .eof last⟩ :=
      Phase.readFrom_prepend _ taken ⟨back, .eof last⟩
    _ = .ok program := followed

/-- Behind other statements a stream is read as it is by itself. -/
theorem Phase.readFrom_behind (line : Int) (front : List Node) (stream : TokenStream) :
    (Phase.statement (.program line front)).readFrom stream =
      shiftRead (.behind line front) stream.parse := by
  have shifted := Phase.start.readFrom_shift (S := .behind line front) stream
  rw [Shift.stream_behind] at shifted
  exact shifted

/-- A source behind one that is read: the statements of both, or the error of the second, which has
nothing to do with the first but for the lines. -/
theorem parse_joined {first : String} (second : String) {program : Node}
    (read : parse first = .ok program) : ∃ line,
      parse (first ++ "\n;" ++ second) = (parse (placedBelow first second)).map fun more =>
        .program line (program.statements ++ more.statements) := by
  obtain ⟨last, ending, fed⟩ := TokenStream.parse_eq_ok_iff.mp read
  obtain ⟨line, joined⟩ := TokenStream.ofSource_joined second ending
  rw [Phase.feedAll_append] at fed
  cases taken : Phase.start.feedAll (TokenStream.ofSource first).tokens with
  | error e =>
      rw [taken] at fed
      cases fed
  | ok phase =>
      rw [taken] at fed
      have ongoing (read : Node) : phase ≠ .done read := fun same =>
        Phase.feedAll_ne_done (TokenStream.lexical_ofSource first) read (same ▸ taken)
      -- The reader is at a place where the input may end, so it takes the semicolon as well.
      have ended : phase.feed (.eof last) = .ok (.done program) :=
        (phase.feedAll_singleton _).symm.trans fed
      obtain ⟨start, continued⟩ :=
        Phase.feed_semicolon (t := ⟨.operator, ";", line⟩) rfl ongoing ended
      have led : Phase.start.feedAll ((TokenStream.ofSource first).tokens ++ [⟨.operator, ";", line⟩]) =
          .ok (.statement (.program start program.statements)) := by
        rw [Phase.feedAll_append, taken]
        exact (phase.feedAll_singleton _).trans continued
      refine ⟨start, ?_⟩
      calc parse (first ++ "\n;" ++ second)
        _ = Phase.start.readFrom (TokenStream.ofSource (first ++ "\n;" ++ second)) := rfl
        _ = shiftRead (.behind start program.statements) (parse (placedBelow first second)) := by
          rw [joined, Phase.start.readFrom_prepend led, Phase.readFrom_behind]
          rfl
        _ = (parse (placedBelow first second)).map fun more =>
            .program start (program.statements ++ more.statements) := by
          cases parsed : parse (placedBelow first second) with
          | error e => exact congrArg Except.error (Shift.error_behind e)
          | ok more =>
              obtain ⟨_, statements, rfl, -⟩ := exists_program_of_parse parsed
              exact congrArg Except.ok (Shift.shiftRoot_behind _ statements)

end Treewalk

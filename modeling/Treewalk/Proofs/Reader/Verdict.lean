import Treewalk.Proofs.Reader.Marks
import Treewalk.Proofs.Reader.Shift
import Treewalk.Proofs.Reader.Viable

/-!
# Reading always ends

A row of tokens may hold anything: no end of input, tokens behind one, texts that no source has. `Reads`
is the reader on such a row as it stands. An end of input is never used up, so a step that asked for more
behind it would ask forever; `Phase.ended_feed_eof` shows that none does, and `reads_iff` that every row
has one outcome.

What can stop the reader is told by `Phase.Grounded`, an invariant of its phases. A block that is open was
opened by a token of the row, so an error always has the line of one, and an operator that is open is one
of the table of levels.
-/

namespace Treewalk

/-! ## What is open in a phase -/

mutual

/-- Every block that is open around a place was opened by a brace of the row, and every operator that
waits for its right operand there has a level. -/
def ExprSlot.Grounded (row : List Token) : ExprSlot → Prop
  | .statement _ list | .binding _ _ list | .result _ list => list.Grounded row
  | .binary _ _ operator outer => 0 < operatorLevel operator ∧ outer.Grounded row
  | .unary _ _ outer | .group outer | .argument _ _ _ outer | .item _ _ outer
  | .entryKey _ _ outer | .entryValue _ _ _ outer | .position _ _ outer => outer.Grounded row
  | .condition _ outer => outer.Grounded row

def IfSlot.Grounded (row : List Token) : IfSlot → Prop
  | .operand outer => outer.Grounded row
  | .elseIf _ _ _ _ outer => outer.Grounded row

def BlockSlot.Grounded (row : List Token) : BlockSlot → Prop
  | .thenBlock _ _ outer | .elseBlock _ _ _ outer => outer.Grounded row
  | .body _ _ outer => outer.Grounded row

def ListSlot.Grounded (row : List Token) : ListSlot → Prop
  | .program _ _ => True
  | .block line _ outer => (∃ t ∈ row, t.spells "\x7b" ∧ t.line = line) ∧ outer.Grounded row

end

/-- The same of all that is open in a phase; what is complete is a program. -/
def Phase.Grounded (row : List Token) : Phase → Prop
  | .start => True
  | .statement list | .bindingName _ list | .bindingEquals _ _ list | .resultOrEnd _ list =>
    list.Grounded row
  | .operand slot | .operandOrEnd slot | .operator _ slot | .parameters _ slot
  | .parameterOrEnd _ _ slot | .parameterEnd _ _ slot => slot.Grounded row
  | .opening slot => slot.Grounded row
  | .afterThen _ _ _ outer | .afterElse _ _ _ _ outer => outer.Grounded row
  | .done program => ∃ line statements, program = .program line statements

/-- An error that a token of the row accounts for: it is on the line of one, or one that is taken for a
number is no numeral. -/
inductive ReadError.From (row : List Token) : ReadError → Prop
  | malformed {t : Token} (fault : ReadFault) : t ∈ row → From row (.malformed t.line fault)
  | notANumeral {t : Token} : t ∈ row → t.kind ≠ .eof → t.opener = "number" →
      Number.ofText? t.text = none → From row (.notANumeral t.text)

/-- A step to a phase that is grounded in the row, or an error that the row accounts for. -/
def Step.Grounded (row : List Token) : Step → Prop
  | .ok phase => phase.Grounded row
  | .error e => e.From row

section Steps

variable {row : List Token} {t : Token}

theorem Step.Grounded.ite {condition : Prop} [Decidable condition] {first second : Step}
    (one : condition → Step.Grounded row first) (two : Step.Grounded row second) :
    Step.Grounded row (if condition then first else second) := by
  split
  · exact one ‹_›
  · exact two

/-- A token of the row may always be refused. -/
theorem Step.Grounded.stop (member : t ∈ row) (fault : ReadFault) :
    Step.Grounded row (.error (.malformed t.line fault)) :=
  ReadError.From.malformed fault member

theorem ListSlot.grounded_add {list : ListSlot} (grounded : list.Grounded row) (node : Node) :
    (list.add node).Grounded row := by
  cases list with
  | program line before => exact grounded
  | block line before outer => exact grounded

theorem IfSlot.grounded_fill {slot : IfSlot} (grounded : slot.Grounded row) (node : Node) :
    (slot.fill node).2.Grounded row := by
  match slot with
  | .operand outer => exact grounded
  | .elseIf line condition consequence elseLine outer =>
      exact outer.grounded_fill grounded _

theorem BlockSlot.grounded_fill {slot : BlockSlot} (grounded : slot.Grounded row) (node : Node) :
    (slot.fill node).Grounded row := by
  cases slot with
  | thenBlock line condition outer => exact grounded
  | elseBlock line condition consequence outer => exact outer.grounded_fill grounded _
  | body line parameters outer => exact grounded

theorem BlockSlot.grounded_begin {slot : BlockSlot} (grounded : slot.Grounded row) (member : t ∈ row) :
    Step.Grounded row (slot.begin t) :=
  .ite (fun brace => ⟨⟨t, member, brace, rfl⟩, grounded⟩) (.stop member _)

theorem ExprSlot.grounded_begin {slot : ExprSlot} (grounded : slot.Grounded row) (member : t ∈ row) :
    Step.Grounded row (slot.begin t) := by
  unfold begin
  split
  · exact .stop member _
  rename_i more
  split
  case h_1 number =>
    split
    · exact grounded
    · exact .notANumeral member more number ‹_›
  case h_13 => exact .stop member _
  all_goals exact grounded

theorem ListSlot.grounded_next {list : ListSlot} (grounded : list.Grounded row) (member : t ∈ row) :
    Step.Grounded row (list.next t) := by
  have statement : Step.Grounded row (list.beginStatement t) :=
    .ite (fun _ => grounded) (.ite (fun _ => grounded) (ExprSlot.grounded_begin grounded member))
  refine .ite (fun _ => grounded) ?_
  cases list with
  | program line before => exact .ite (fun _ => ⟨line, before, rfl⟩) statement
  | block line before outer =>
      obtain ⟨brace, opened, -, rfl⟩ := grounded.1
      exact .ite (fun _ => outer.grounded_fill grounded.2 _)
        (.ite (fun _ => .stop opened _) statement)

/-- A token that takes the operand in front of it stands in the table. -/
theorem ExprSlot.grounded_extend {slot : ExprSlot} (grounded : slot.Grounded row) (left : Node)
    (levelled : 0 < t.level) : (slot.extend left t).Grounded row := by
  have tabled : 0 < operatorLevel t.text := by
    rw [← Token.level_of_spells (Token.spells_text_of_level_pos levelled)]
    exact levelled
  unfold extend
  split
  · exact grounded
  · exact grounded
  · exact ⟨tabled, grounded⟩

theorem ExprSlot.grounded_end? {slot : ExprSlot} (grounded : slot.Grounded row) :
    ∀ phase ∈ slot.end? t, phase.Grounded row := by
  intro phase ended
  cases slot with
  | argument | item | entryKey =>
      simp only [end?, Option.mem_def, Option.ite_none_right_eq_some, Option.some.injEq] at ended
      obtain ⟨-, rfl⟩ := ended
      exact grounded
  | _ => cases ended

theorem ExprSlot.grounded_next {slot : ExprSlot} (grounded : slot.Grounded row) (left : Node)
    (member : t ∈ row) : Step.Grounded row (slot.next left t) := by
  rw [next.eq_def]
  refine .ite (fun stronger => grounded_extend grounded left (Nat.zero_lt_of_lt stronger)) ?_
  match slot with
  | .statement line list | .binding line name list | .result line list =>
      exact (list.add _).grounded_next (ListSlot.grounded_add grounded _) member
  | .unary line operator outer => exact outer.grounded_next grounded _ member
  | .binary line before operator outer => exact outer.grounded_next grounded.2 _ member
  | .group outer | .entryKey line before outer | .position line subject outer =>
      exact .ite (fun _ => grounded) (.stop member _)
  | .argument line callee before outer | .item line before outer
  | .entryValue line before key outer =>
      exact .ite (fun _ => grounded) (.ite (fun _ => grounded) (.stop member _))
  | .condition line outer => exact BlockSlot.grounded_begin grounded member

/-- Feeding a token of the row keeps a phase grounded. -/
theorem Phase.grounded_feed {phase : Phase} (grounded : phase.Grounded row) (member : t ∈ row) :
    Step.Grounded row (phase.feed t) := by
  cases phase with
  | start => exact ListSlot.grounded_next trivial member
  | statement list => exact list.grounded_next grounded member
  | operand slot => exact slot.grounded_begin grounded member
  | operandOrEnd slot =>
      simp only [feed]
      split
      · exact slot.grounded_end? grounded _ ‹_›
      · exact slot.grounded_begin grounded member
  | operator left slot => exact slot.grounded_next grounded left member
  | bindingName | bindingEquals | parameters => exact .ite (fun _ => grounded) (.stop member _)
  | resultOrEnd line list =>
      exact .ite (fun _ => (list.add _).grounded_next (list.grounded_add grounded _) member)
        (ExprSlot.grounded_begin grounded member)
  | parameterOrEnd | parameterEnd =>
      exact .ite (fun _ => grounded) (.ite (fun _ => grounded) (.stop member _))
  | opening slot => exact slot.grounded_begin grounded member
  | afterThen line condition consequence outer =>
      exact .ite (fun _ => grounded)
        (ExprSlot.grounded_next (outer.grounded_fill grounded _) _ member)
  | afterElse line condition consequence elseLine outer =>
      exact .ite (fun _ => grounded) (BlockSlot.grounded_begin grounded member)
  | done program => exact grounded

/-- So does feeding a run of tokens. -/
theorem Phase.grounded_feedAll {phase : Phase} (grounded : phase.Grounded row) {front : List Token}
    (among : ∀ t ∈ front, t ∈ row) : Step.Grounded row (phase.feedAll front) := by
  induction front generalizing phase with
  | nil => exact grounded
  | cons t front ih =>
      rw [feedAll_cons]
      have step := grounded_feed grounded (among t List.mem_cons_self)
      cases fed : phase.feed t with
      | error e =>
          rw [fed] at step
          exact step
      | ok after =>
          rw [fed] at step
          exact ih step fun u member => among u (List.mem_cons_of_mem t member)

end Steps

/-! ## The end of input -/

/-- A step behind which nothing is asked for. -/
def Step.Ended (step : Step) : Prop := ∀ phase, step = .ok phase → ∃ program, phase = .done program

namespace Step.Ended

theorem error {e : ReadError} : Ended (.error e) := by
  rintro phase ⟨⟩

theorem done {program : Node} : Ended (.ok (.done program)) := by
  rintro phase ⟨⟩
  exact ⟨program, rfl⟩

end Step.Ended

variable {line : Int}

theorem ListSlot.ended_next_eof (list : ListSlot) : Step.Ended (list.next (.eof line)) := by
  cases list with
  | program start before => exact .done
  | block start before outer => exact .error

theorem ExprSlot.ended_next_eof (slot : ExprSlot) (left : Node) :
    Step.Ended (slot.next left (.eof line)) := by
  have flat : ¬ slot.level < (Token.eof line).level := Nat.not_lt_zero _
  rw [next.eq_def, if_neg flat]
  match slot with
  | .statement _ list | .binding _ _ list | .result _ list => exact (list.add _).ended_next_eof
  | .unary _ _ outer | .binary _ _ _ outer => exact outer.ended_next_eof _
  | .group .. | .argument .. | .item .. | .entryKey .. | .entryValue .. | .position ..
  | .condition .. => exact .error

/-- Wherever the reader stands, an end of input completes the program or is an error. -/
theorem Phase.ended_feed_eof (phase : Phase) : Step.Ended (phase.feed (.eof line)) := by
  cases phase with
  | start => exact .done
  | statement list => exact list.ended_next_eof
  | operator left slot => exact slot.ended_next_eof left
  | resultOrEnd _ list => exact (list.add _).ended_next_eof
  | afterThen => exact ExprSlot.ended_next_eof _ _
  | done program => exact .done
  | operandOrEnd slot => cases slot <;> exact .error
  | _ => exact .error

/-! ## Rows as they stand -/

namespace Token

/-- The token that the reader finds at the head of a row. Behind the last token that is an end of input on
the line `last` of the token taken before it, and of an end of input only the line is looked at. -/
def ahead (last : Int) : List Token → Token
  | [] => .eof last
  | t :: _ => if t.kind = .eof then .eof t.line else t

/-- What is left of a row when the token at its head is taken. An end of input stays where it is. -/
def behind : List Token → List Token
  | [] => []
  | t :: rest => if t.kind = .eof then t :: rest else rest

/-- The line on which a row ends. -/
def endLine (last : Int) : List Token → Int
  | [] => last
  | t :: rest => if t.kind = .eof then t.line else endLine t.line rest

end Token

/-- Reading a row from a phase comes to an outcome: tokens are fed, one after the other, until one is
refused or completes the program. -/
inductive Reads : Phase → Int → List Token → Except ReadError Node → Prop
  | done {program : Node} {last : Int} {row : List Token} : Reads (.done program) last row (.ok program)
  | refused {phase : Phase} {last : Int} {row : List Token} {e : ReadError} :
      phase.feed (Token.ahead last row) = .error e → Reads phase last row (.error e)
  | step {phase after : Phase} {last : Int} {row : List Token} {outcome : Except ReadError Node} :
      phase.feed (Token.ahead last row) = .ok after →
      Reads after (Token.ahead last row).line (Token.behind row) outcome →
      Reads phase last row outcome

/-- A row ends on the line of its first end of input, or else of its last token. -/
theorem Token.endLine_eq (last : Int) (row : List Token) :
    endLine last row = (((row.dropWhile (·.kind ≠ .eof)).head?.or
      (row.takeWhile (·.kind ≠ .eof)).getLast?).map Token.line).getD last := by
  induction row generalizing last with
  | nil => rfl
  | cons t rest ih =>
      by_cases ends : t.kind = .eof
      · simp [endLine, ends]
      · rw [endLine, if_neg ends, ih t.line]
        simp only [ends, ne_eq, not_false_eq_true, decide_true, List.dropWhile_cons_of_pos,
          List.takeWhile_cons_of_pos, List.getLast?_cons]
        cases (rest.dropWhile fun t => decide ¬t.kind = .eof).head? with
        | some eof => rfl
        | none => cases (rest.takeWhile fun t => decide ¬t.kind = .eof).getLast? <;> rfl

theorem TokenStream.ofTokens_eq (row : List Token) :
    ofTokens row = ⟨row.takeWhile (·.kind ≠ .eof), .eof (Token.endLine 1 row)⟩ := by
  rw [Token.endLine_eq, ofTokens]
  cases (row.dropWhile (·.kind ≠ .eof)).head? <;> rfl

namespace Reads

variable {phase : Phase} {last : Int} {row : List Token} {outcome other : Except ReadError Node}

/-- At an end of input. -/
theorem finish (found : Token.ahead last row = .eof line) : Reads phase last row (phase.finish line) := by
  unfold Phase.finish
  cases fed : phase.feed (.eof line) with
  | error e => exact .refused (found ▸ fed)
  | ok after =>
      obtain ⟨program, rfl⟩ := phase.ended_feed_eof after fed
      exact .step (found ▸ fed) .done

/-- A row is read to its end. -/
theorem readFrom (phase : Phase) (last : Int) (row : List Token) :
    Reads phase last row
      (phase.readFrom ⟨row.takeWhile (·.kind ≠ .eof), .eof (Token.endLine last row)⟩) := by
  induction row generalizing phase last with
  | nil => exact finish rfl
  | cons t rest ih =>
      by_cases ends : t.kind = .eof
      · simp only [Token.endLine, ends, if_true, ne_eq, not_true_eq_false, decide_false,
          List.takeWhile_cons_of_neg, Bool.false_eq_true, not_false_eq_true]
        exact finish (by simp [Token.ahead, ends])
      · have found : Token.ahead last (t :: rest) = t := if_neg ends
        simp only [Token.endLine, ends, if_false, ne_eq, not_false_eq_true, decide_true,
          List.takeWhile_cons_of_pos, Phase.readFrom, Phase.feedAll_cons]
        cases fed : phase.feed t with
        | error e => exact .refused (found.symm ▸ fed)
        | ok after =>
            refine .step (found.symm ▸ fed) ?_
            rw [found, Token.behind, if_neg ends]
            exact ih after t.line

theorem eq_of_done {program : Node} (reads : Reads (.done program) last row outcome) :
    outcome = .ok program := by
  generalize same : Phase.done program = phase at reads
  induction reads with
  | done =>
      cases same
      rfl
  | refused fed =>
      subst same
      cases fed
  | step fed _ ih =>
      subst same
      cases fed
      exact ih rfl

/-- Reading a row has one outcome. -/
theorem unique (one : Reads phase last row outcome) (two : Reads phase last row other) :
    outcome = other := by
  -- A complete program may be read further and stays what it is; elsewhere the next token decides.
  induction one with
  | done => exact two.eq_of_done.symm
  | refused fed =>
      cases two with
      | done => cases fed
      | refused fedOther =>
          rw [fed] at fedOther
          cases fedOther
          rfl
      | step fedOther _ =>
          rw [fed] at fedOther
          cases fedOther
  | step fed reads ih =>
      cases two with
      | done =>
          cases fed
          exact reads.eq_of_done
      | refused fedOther =>
          rw [fed] at fedOther
          cases fedOther
      | step fedOther later =>
          rw [fed] at fedOther
          cases fedOther
          exact ih later

end Reads

/-- Every row has an outcome, and it is what the reader gives. -/
theorem reads_iff {row : List Token} {outcome : Except ReadError Node} :
    Reads .start 1 row outcome ↔ outcome = (TokenStream.ofTokens row).parse := by
  have whole : Reads .start 1 row (TokenStream.ofTokens row).parse := by
    rw [TokenStream.ofTokens_eq]
    exact Reads.readFrom .start 1 row
  refine ⟨fun reads => reads.unique whole, ?_⟩
  rintro rfl
  exact whole

/-! ## Outcomes -/

/-- What reading may come to: a program, or an error that the row accounts for. -/
def Verdict (row : List Token) : Except ReadError Node → Prop
  | .ok node => ∃ line statements, node = .program line statements
  | .error e => e.From row

/-- The outcome of a stream whose tokens, the end of input included, are in the row: what the reader comes
to, or the error that the stream ends with. -/
theorem TokenStream.verdict_parse {stream : TokenStream} {row : List Token}
    (among : ∀ t ∈ stream.tokens, t ∈ row) (last : ∀ line, stream.ending = .eof line → .eof line ∈ row) :
    Verdict row stream.parse ∨ ∃ line fault,
      stream.ending = .fault line fault ∧ stream.parse = .error (.malformed line fault) := by
  have start : Phase.Grounded row .start := trivial
  have fedAll := Phase.grounded_feedAll start among
  unfold parse
  cases taken : Phase.start.feedAll stream.tokens with
  | error e =>
      rw [taken] at fedAll
      exact .inl fedAll
  | ok phase =>
      rw [taken] at fedAll
      cases ending : stream.ending with
      | fault line fault => exact .inr ⟨line, fault, rfl, rfl⟩
      | eof line =>
          left
          have fed := Phase.grounded_feed fedAll (last line ending)
          simp only [Phase.finish]
          cases step : phase.feed (.eof line) with
          | error e =>
              rw [step] at fed
              exact fed
          | ok after =>
              obtain ⟨program, rfl⟩ := phase.ended_feed_eof after step
              rw [step] at fed
              exact fed

theorem Token.exists_endLine {row : List Token} (nonempty : row ≠ []) (last : Int) :
    ∃ t ∈ row, t.line = endLine last row := by
  induction row generalizing last with
  | nil => exact absurd rfl nonempty
  | cons t rest ih =>
      by_cases ends : t.kind = .eof
      · exact ⟨t, List.mem_cons_self, by simp [endLine, ends]⟩
      · rw [endLine, if_neg ends]
        cases rest with
        | nil => exact ⟨t, List.mem_cons_self, rfl⟩
        | cons next more =>
            obtain ⟨u, member, line⟩ := ih (by simp) t.line
            exact ⟨u, List.mem_cons_of_mem t member, line⟩

/-- An end of input that was not in the row has the line of a token that was. -/
theorem verdict_ofTokens (row : List Token) : Verdict row (TokenStream.ofTokens row).parse := by
  by_cases nonempty : row = []
  · subst nonempty
    exact ⟨1, [], rfl⟩
  -- The end of input need not be in the row: it is put there first, and then traced to a token of the row.
  have all : Verdict (row ++ [Token.eof (Token.endLine 1 row)]) (TokenStream.ofTokens row).parse := by
    rw [TokenStream.ofTokens_eq]
    refine (TokenStream.verdict_parse ?_ ?_).resolve_right (by simp)
    · exact fun t member => List.mem_append_left _ (List.takeWhile_subset _ member)
    · rintro line ⟨⟩
      simp
  cases outcome : (TokenStream.ofTokens row).parse with
  | ok node =>
      rw [outcome] at all
      exact all
  | error e =>
      rw [outcome] at all
      cases all with
      | malformed fault member =>
          rcases List.mem_append.mp member with inside | last
          · exact ReadError.From.malformed fault inside
          · obtain ⟨t, inside, line⟩ := Token.exists_endLine nonempty 1
            have same : t.line = (Token.eof (Token.endLine 1 row)).line := line
            rw [List.mem_singleton.mp last, ← same]
            exact ReadError.From.malformed fault inside
      | notANumeral member more number none =>
          rcases List.mem_append.mp member with inside | last
          · exact ReadError.From.notANumeral inside more number none
          · rw [List.mem_singleton.mp last] at more
            exact absurd rfl more

/-- A source is refused on one of its lines. -/
theorem line_of_refused {source : String} {line : Int} {fault : ReadFault}
    (refused : parse source = .error (.malformed line fault)) :
    1 ≤ line ∧ line ≤ 1 + source.toList.count '\n' := by
  have among : ∀ t ∈ (TokenStream.ofSource source).tokens, t ∈ tokensOf source := by
    intro t member
    unfold tokensOf
    split <;> simp [member]
  have last : ∀ line, (TokenStream.ofSource source).ending = .eof line → .eof line ∈ tokensOf source := by
    intro line ending
    simp [tokensOf, ending]
  unfold parse at refused
  rcases TokenStream.verdict_parse among last with verdict | ⟨place, cause, ending, own⟩
  · rw [refused] at verdict
    cases verdict with
    | malformed _ member => exact line_of_mem_tokensOf member
  · rw [refused] at own
    cases own
    exact TokenStream.line_fault_ofSource ending

/-- Parsing always ends, with a documented outcome. Reading a row of any tokens comes to one outcome,
which is a program, an error on the line of a token of the row, or a token that is taken for a number and
is no numeral; and the operators that wait for an operand on the way are those of the table of levels. A
source is read as a program, or refused on one of its lines and never for a numeral. -/
theorem reading_always_ends :
    (∀ row : List Token,
      (∀ outcome, Reads .start 1 row outcome ↔ outcome = (TokenStream.ofTokens row).parse) ∧
      Verdict row (TokenStream.ofTokens row).parse ∧
      ∀ front phase, front <+: row → Phase.start.feedAll front = .ok phase → phase.Grounded row) ∧
    ∀ source : String,
      (∃ line statements, parse source = .ok (.program line statements)) ∨
      ∃ line fault, parse source = .error (.malformed line fault) ∧
        1 ≤ line ∧ line ≤ 1 + source.toList.count '\n' := by
  refine ⟨fun row => ⟨fun _ => reads_iff, verdict_ofTokens row, ?_⟩, fun source => ?_⟩
  · intro front phase starts taken
    have start : Phase.Grounded row .start := trivial
    have fedAll := Phase.grounded_feedAll start fun t member => starts.subset member
    rw [taken] at fedAll
    exact fedAll
  · cases outcome : parse source with
    | ok program =>
        obtain ⟨line, statements, rfl, -⟩ := exists_program_of_parse outcome
        exact .inl ⟨line, statements, rfl⟩
    | error e =>
        obtain ⟨line, fault, rfl⟩ := malformed_of_parse outcome
        exact .inr ⟨line, fault, rfl, line_of_refused outcome⟩

/-- In a row with tokens behind an end of input, `a +` waits for an operand and finds the end. -/
theorem reading_always_ends_inside :
    Phase.start.feedAll [⟨.name, "a", 1⟩, ⟨.operator, "+", 1⟩] =
        .ok (.operand (.binary 1 (.identifier 1 "a") "+" (.statement 1 (.program 1 [])))) ∧
      ExprSlot.Grounded [⟨.name, "a", 1⟩, ⟨.operator, "+", 1⟩, .eof 2, ⟨.name, "b", 3⟩]
        (.binary 1 (.identifier 1 "a") "+" (.statement 1 (.program 1 []))) ∧
      Reads .start 1 [⟨.name, "a", 1⟩, ⟨.operator, "+", 1⟩, .eof 2, ⟨.name, "b", 3⟩]
        (.error (.malformed 2 (.unexpectedToken (.eof 2)))) := by
  have fed : Phase.start.feedAll [⟨.name, "a", 1⟩, ⟨.operator, "+", 1⟩] =
      .ok (.operand (.binary 1 (.identifier 1 "a") "+" (.statement 1 (.program 1 [])))) := by rfl
  obtain ⟨outcomes, -, grounded⟩ :=
    reading_always_ends.1 [⟨.name, "a", 1⟩, ⟨.operator, "+", 1⟩, .eof 2, ⟨.name, "b", 3⟩]
  exact ⟨fed, grounded _ _ ⟨[.eof 2, ⟨.name, "b", 3⟩], rfl⟩ fed, (outcomes _).mpr rfl⟩

end Treewalk

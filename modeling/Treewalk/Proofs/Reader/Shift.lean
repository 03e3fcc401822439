import Treewalk.Proofs.Reader.Steps
import Treewalk.Proofs.Source.Scan
import Treewalk.Proofs.Tree.Lines

/-!
# Reading the same tokens elsewhere

The reader looks at a token's kind and text, and only hands its line on. It looks at the list of
statements it adds to, and not at what is in the list. So it goes the same way when the tokens stand on
other lines, and when statements were read before. A `Shift` is such a move; `Phase.feed_shift` shows
that a step of the reader commutes with it, and `Phase.feedAll_shift` that a run does.
-/

namespace Treewalk

/-- What becomes of lines, and of the statements of the program. -/
structure Shift where
  line : Int → Int
  /-- No line stays no line. -/
  zero : line 0 = 0
  /-- The line of the program and the statements in front, where some were read before. -/
  lead : Option (Int × List Node)

namespace Shift

/-- Other lines. -/
def lines (f : Int → Int) (zero : f 0 = 0) : Shift := ⟨f, zero, none⟩

/-- Statements in front. -/
def behind (line : Int) (nodes : List Node) : Shift := ⟨id, rfl, some (line, nodes)⟩

/-- The line and the statements of the program. -/
def root (S : Shift) (line : Int) (nodes : List Node) : Int × List Node :=
  match S.lead with
  | none => (S.line line, nodes.map (Node.mapLines S.line))
  | some (line, front) => (line, front ++ nodes.map (Node.mapLines S.line))

theorem root_append (S : Shift) (line : Int) (nodes : List Node) (node : Node) :
    S.root line (nodes ++ [node]) =
      ((S.root line nodes).1, (S.root line nodes).2 ++ [node.mapLines S.line]) := by
  unfold root
  cases S.lead <;> simp

end Shift

/-! ## What is shifted -/

def Token.shift (S : Shift) (t : Token) : Token := { t with line := S.line t.line }

def ReadFault.shift (S : Shift) : ReadFault → ReadFault
  | .unexpectedToken got => .unexpectedToken (got.shift S)
  | .expected mark got => .expected mark (got.shift S)
  | .expectedName got => .expectedName (got.shift S)
  | .expectedParameter got => .expectedParameter (got.shift S)
  | fault => fault

def ReadError.shift (S : Shift) : ReadError → ReadError
  | .malformed line fault => .malformed (S.line line) (fault.shift S)
  | .notANumeral text => .notANumeral text

mutual

def ExprSlot.shift (S : Shift) : ExprSlot → ExprSlot
  | .statement line list => .statement (S.line line) (list.shift S)
  | .binding line name list => .binding (S.line line) (name.mapLine S.line) (list.shift S)
  | .result line list => .result (S.line line) (list.shift S)
  | .unary line operator outer => .unary (S.line line) operator (outer.shift S)
  | .binary line left operator outer =>
    .binary (S.line line) (left.mapLines S.line) operator (outer.shift S)
  | .group outer => .group (outer.shift S)
  | .argument line callee before outer =>
    .argument (S.line line) (callee.mapLines S.line) (before.map (Node.mapLines S.line))
      (outer.shift S)
  | .item line before outer =>
    .item (S.line line) (before.map (Node.mapLines S.line)) (outer.shift S)
  | .entryKey line before outer =>
    .entryKey (S.line line) (mapLinesEntries S.line before) (outer.shift S)
  | .entryValue line before key outer =>
    .entryValue (S.line line) (mapLinesEntries S.line before) (key.mapLines S.line) (outer.shift S)
  | .position line subject outer =>
    .position (S.line line) (subject.mapLines S.line) (outer.shift S)
  | .condition line outer => .condition (S.line line) (outer.shift S)

def IfSlot.shift (S : Shift) : IfSlot → IfSlot
  | .operand outer => .operand (outer.shift S)
  | .elseIf line condition consequence elseLine outer =>
    .elseIf (S.line line) (condition.mapLines S.line) (consequence.mapLines S.line)
      (S.line elseLine) (outer.shift S)

def BlockSlot.shift (S : Shift) : BlockSlot → BlockSlot
  | .thenBlock line condition outer =>
    .thenBlock (S.line line) (condition.mapLines S.line) (outer.shift S)
  | .elseBlock line condition consequence outer =>
    .elseBlock (S.line line) (condition.mapLines S.line) (consequence.mapLines S.line)
      (outer.shift S)
  | .body line parameters outer =>
    .body (S.line line) (parameters.map (Name.mapLine S.line)) (outer.shift S)

def ListSlot.shift (S : Shift) : ListSlot → ListSlot
  | .program line before => .program (S.root line before).1 (S.root line before).2
  | .block line before outer =>
    .block (S.line line) (before.map (Node.mapLines S.line)) (outer.shift S)

end

/-- A program with statements in front. -/
def Node.shiftRoot (S : Shift) : Node → Node
  | .program line statements => .program (S.root line statements).1 (S.root line statements).2
  | node => node.mapLines S.line

def Phase.shift (S : Shift) : Phase → Phase
  | .start =>
    match S.lead with
    | none => .start
    | some (line, front) => .statement (.program line front)
  | .statement list => .statement (list.shift S)
  | .operand slot => .operand (slot.shift S)
  | .operandOrEnd slot => .operandOrEnd (slot.shift S)
  | .operator left slot => .operator (left.mapLines S.line) (slot.shift S)
  | .bindingName line list => .bindingName (S.line line) (list.shift S)
  | .bindingEquals line name list =>
    .bindingEquals (S.line line) (name.mapLine S.line) (list.shift S)
  | .resultOrEnd line list => .resultOrEnd (S.line line) (list.shift S)
  | .parameters line outer => .parameters (S.line line) (outer.shift S)
  | .parameterOrEnd line before outer =>
    .parameterOrEnd (S.line line) (before.map (Name.mapLine S.line)) (outer.shift S)
  | .parameterEnd line before outer =>
    .parameterEnd (S.line line) (before.map (Name.mapLine S.line)) (outer.shift S)
  | .opening slot => .opening (slot.shift S)
  | .afterThen line condition consequence outer =>
    .afterThen (S.line line) (condition.mapLines S.line) (consequence.mapLines S.line)
      (outer.shift S)
  | .afterElse line condition consequence elseLine outer =>
    .afterElse (S.line line) (condition.mapLines S.line) (consequence.mapLines S.line)
      (S.line elseLine) (outer.shift S)
  | .done program => .done (program.shiftRoot S)

def Step.shift (S : Shift) : Step → Step
  | .ok phase => .ok (phase.shift S)
  | .error e => .error (e.shift S)

variable {S : Shift}

/-! ## Tokens and pieces -/

@[simp] theorem Token.kind_shift (t : Token) : (t.shift S).kind = t.kind := rfl
@[simp] theorem Token.text_shift (t : Token) : (t.shift S).text = t.text := rfl
@[simp] theorem Token.line_shift (t : Token) : (t.shift S).line = S.line t.line := rfl
@[simp] theorem Token.opener_shift (t : Token) : (t.shift S).opener = t.opener := rfl
@[simp] theorem Token.level_shift (t : Token) : (t.shift S).level = t.level := rfl

@[simp]
theorem Token.spells_shift (t : Token) (mark : String) : (t.shift S).spells mark = t.spells mark :=
  rfl

theorem ReadFault.message_shift (fault : ReadFault) : (fault.shift S).message = fault.message := by
  cases fault <;> rfl

theorem Node.mapLines_joined {f : Int → Int} (line : Int) (left : Node) (operator : String)
    (right : Node) : (Node.joined line left operator right).mapLines f =
      .joined (f line) (left.mapLines f) operator (right.mapLines f) := by
  unfold joined
  split
  · rfl
  · rfl

@[simp]
theorem ExprSlot.level_shift (slot : ExprSlot) : (slot.shift S).level = slot.level := by
  cases slot <;> simp only [ExprSlot.shift, ExprSlot.level]

theorem ListSlot.shift_add (list : ListSlot) (node : Node) :
    (list.add node).shift S = (list.shift S).add (node.mapLines S.line) := by
  cases list with
  | program line before => simp only [add, shift, Shift.root_append]
  | block line before outer => simp [add, shift]

/-- A conditional in its place, on other lines. -/
theorem IfSlot.shift_fill (slot : IfSlot) (node : Node) :
    (slot.shift S).fill (node.mapLines S.line) =
      ((slot.fill node).1.mapLines S.line, (slot.fill node).2.shift S) := by
  match slot with
  | .operand outer => simp only [IfSlot.shift, fill]
  | .elseIf line condition consequence elseLine outer =>
      have filled := shift_fill outer (.conditional line condition consequence
        (some (.block elseLine [.expression node.line node])))
      simp only [IfSlot.shift, fill, ← filled, Node.line_mapLines S.zero, Node.mapLines, mapLinesEach]

theorem BlockSlot.shift_fill (slot : BlockSlot) (block : Node) :
    (slot.shift S).fill (block.mapLines S.line) = (slot.fill block).shift S := by
  cases slot with
  | thenBlock line condition outer => simp only [shift, fill, Phase.shift]
  | elseBlock line condition consequence outer =>
      have filled := outer.shift_fill (S := S) (.conditional line condition consequence (some block))
      simp only [Node.mapLines] at filled
      simp only [shift, fill, Phase.shift, filled]
  | body line parameters outer => simp only [shift, fill, Phase.shift, Node.mapLines]

/-! ## Steps -/

theorem Step.shift_ite {condition : Prop} [Decidable condition] (first second : Step) :
    Step.shift S (if condition then first else second) =
      if condition then first.shift S else second.shift S := by
  split <;> rfl

theorem ExprSlot.begin_shift (slot : ExprSlot) (t : Token) :
    (slot.shift S).begin (t.shift S) = (slot.begin t).shift S := by
  unfold begin
  rw [Step.shift_ite, Token.kind_shift]
  congr 1
  rw [Token.opener_shift]
  split
  case h_1 =>
    rw [Token.text_shift]
    cases Number.ofText? t.text <;> rfl
  all_goals rfl

theorem ExprSlot.end?_shift (slot : ExprSlot) (t : Token) :
    (slot.shift S).end? (t.shift S) = (slot.end? t).map (Phase.shift S) := by
  cases slot with
  | argument line callee before outer =>
      by_cases closed : t.spells ")" <;> simp [ExprSlot.shift, end?, Phase.shift, Node.mapLines, closed]
  | item line before outer =>
      by_cases closed : t.spells "]" <;> simp [ExprSlot.shift, end?, Phase.shift, Node.mapLines, closed]
  | entryKey line before outer =>
      by_cases closed : t.spells "\x7d" <;>
        simp [ExprSlot.shift, end?, Phase.shift, Node.mapLines, closed]
  | _ => simp only [ExprSlot.shift, end?, Option.map_none]

theorem BlockSlot.begin_shift (slot : BlockSlot) (t : Token) :
    (slot.shift S).begin (t.shift S) = (slot.begin t).shift S := by
  unfold begin
  rw [Step.shift_ite]
  rfl

theorem ListSlot.beginStatement_shift (list : ListSlot) (t : Token) :
    (list.shift S).beginStatement (t.shift S) = (list.beginStatement t).shift S := by
  unfold beginStatement
  rw [Step.shift_ite, Step.shift_ite, ← ExprSlot.begin_shift]
  rfl

theorem ListSlot.next_shift (list : ListSlot) (t : Token) :
    (list.shift S).next (t.shift S) = (list.next t).shift S := by
  have statement := list.beginStatement_shift (S := S) t
  unfold next
  rw [Step.shift_ite]
  cases list with
  | program line before =>
      simp only [shift] at statement ⊢
      rw [Step.shift_ite, ← statement]
      rfl
  | block line before outer =>
      have filled := outer.shift_fill (S := S) (.block line before)
      simp only [Node.mapLines, mapLinesEach_eq_map] at filled
      simp only [shift] at statement ⊢
      rw [Step.shift_ite, Step.shift_ite, ← statement, filled]
      rfl

theorem ExprSlot.extend_shift (slot : ExprSlot) (left : Node) (t : Token) :
    (slot.shift S).extend (left.mapLines S.line) (t.shift S) = (slot.extend left t).shift S := by
  unfold extend
  rw [Token.text_shift]
  split <;> rfl

theorem ExprSlot.next_shift (slot : ExprSlot) (left : Node) (t : Token) :
    (slot.shift S).next (left.mapLines S.line) (t.shift S) = (slot.next left t).shift S := by
  have row (nodes : List Node) : (nodes ++ [left]).map (Node.mapLines S.line) =
      nodes.map (Node.mapLines S.line) ++ [left.mapLines S.line] := List.map_append
  rw [next.eq_def, next.eq_def left slot, Step.shift_ite, ExprSlot.level_shift, Token.level_shift,
    extend_shift]
  congr 1
  cases slot with
  | statement line list =>
      simp only [ExprSlot.shift, ← ListSlot.next_shift, ListSlot.shift_add, Node.mapLines]
  | binding line name list =>
      simp only [ExprSlot.shift, ← ListSlot.next_shift, ListSlot.shift_add, Node.mapLines]
  | result line list =>
      simp only [ExprSlot.shift, ← ListSlot.next_shift, ListSlot.shift_add, Node.mapLines]
  | unary line operator outer =>
      simp only [ExprSlot.shift, ← next_shift outer, Node.mapLines]
  | binary line before operator outer =>
      simp only [ExprSlot.shift, ← next_shift outer, Node.mapLines_joined]
  | group outer =>
      simp only [ExprSlot.shift, Step.shift_ite]
      rfl
  | argument line callee before outer =>
      simp only [ExprSlot.shift, Step.shift_ite, ← row]
      simp only [Step.shift, Phase.shift, Node.mapLines, ExprSlot.shift, mapLinesEach_eq_map]
      rfl
  | item line before outer =>
      simp only [ExprSlot.shift, Step.shift_ite, ← row]
      simp only [Step.shift, Phase.shift, Node.mapLines, ExprSlot.shift, mapLinesEach_eq_map]
      rfl
  | entryKey line before outer =>
      simp only [ExprSlot.shift, Step.shift_ite]
      rfl
  | entryValue line before key outer =>
      simp only [ExprSlot.shift, Step.shift_ite]
      simp [Step.shift, Phase.shift, Node.mapLines, ExprSlot.shift]
      rfl
  | position line subject outer =>
      simp only [ExprSlot.shift, Step.shift_ite]
      rfl
  | condition line outer =>
      simp only [ExprSlot.shift, ← BlockSlot.begin_shift, BlockSlot.shift]

/-- A step of the reader goes the same way elsewhere. -/
theorem Phase.feed_shift (phase : Phase) (t : Token) :
    (phase.shift S).feed (t.shift S) = (phase.feed t).shift S := by
  cases phase with
  | start =>
      -- The program starts with the first token, or has started before with the statements in front.
      have started := (ListSlot.program t.line []).next_shift (S := S) t
      simp only [feed, ← started, shift]
      cases lead : S.lead with
      | none => simp [ListSlot.shift, Shift.root, lead]
      | some front => simp [ListSlot.shift, Shift.root, lead]
  | statement list => exact list.next_shift t
  | operand slot => exact slot.begin_shift t
  | operandOrEnd slot =>
      simp only [shift, feed, ExprSlot.end?_shift]
      cases slot.end? t with
      | none => exact slot.begin_shift t
      | some ended => rfl
  | operator left slot => exact slot.next_shift left t
  | bindingName line list =>
      simp only [shift, feed, Step.shift_ite]
      rfl
  | bindingEquals line name list =>
      simp only [shift, feed, Step.shift_ite]
      rfl
  | resultOrEnd line list =>
      simp only [shift, feed, Step.shift_ite, ← ListSlot.next_shift, ListSlot.shift_add,
        ← ExprSlot.begin_shift]
      rfl
  | parameters line outer =>
      simp only [shift, feed, Step.shift_ite]
      rfl
  | parameterOrEnd line before outer =>
      simp only [shift, feed, Step.shift_ite]
      simp [Step.shift, shift]
      rfl
  | parameterEnd line before outer =>
      simp only [shift, feed, Step.shift_ite]
      rfl
  | opening slot => exact slot.begin_shift t
  | afterThen line condition consequence outer =>
      have filled := outer.shift_fill (S := S) (.conditional line condition consequence none)
      simp only [Node.mapLines] at filled
      simp only [shift, feed, Step.shift_ite, ← ExprSlot.next_shift, filled]
      rfl
  | afterElse line condition consequence elseLine outer =>
      simp only [shift, feed, Step.shift_ite, ← BlockSlot.begin_shift]
      rfl
  | done program => rfl

/-- So does a run of the reader. -/
theorem Phase.feedAll_shift (phase : Phase) (row : List Token) :
    (phase.shift S).feedAll (row.map (Token.shift S)) = (phase.feedAll row).shift S := by
  induction row generalizing phase with
  | nil => rfl
  | cons t row ih =>
      rw [List.map_cons, feedAll_cons, feedAll_cons, feed_shift]
      cases phase.feed t with
      | error e => rfl
      | ok after => exact ih after

/-! ## Whole streams -/

def shiftRead (S : Shift) : Except ReadError Node → Except ReadError Node
  | .ok program => .ok (program.shiftRoot S)
  | .error e => .error (e.shift S)

theorem Phase.finish_shift (phase : Phase) (line : Int) :
    (phase.shift S).finish (S.line line) = shiftRead S (phase.finish line) := by
  have fed := phase.feed_shift (S := S) (.eof line)
  unfold finish
  rw [show Token.eof (S.line line) = (Token.eof line).shift S from rfl, fed]
  cases phase.feed (.eof line) with
  | error e => rfl
  | ok after =>
      cases after with
      | start => cases lead : S.lead <;> simp only [Step.shift, shift, lead] <;> rfl
      | _ => rfl

/-- Reading from a phase to the end of the stream. -/
def Phase.readFrom (phase : Phase) (stream : TokenStream) : Except ReadError Node :=
  match phase.feedAll stream.tokens with
  | .error e => .error e
  | .ok after =>
    match stream.ending with
    | .eof line => after.finish line
    | .fault line fault => .error (.malformed line fault)

def Ending.shift (S : Shift) : Ending → Ending
  | .eof line => .eof (S.line line)
  | .fault line cause => .fault (S.line line) (cause.shift S)

def TokenStream.shift (S : Shift) (stream : TokenStream) : TokenStream :=
  ⟨stream.tokens.map (Token.shift S), stream.ending.shift S⟩

theorem Phase.readFrom_shift (phase : Phase) (stream : TokenStream) :
    (phase.shift S).readFrom (stream.shift S) = shiftRead S (phase.readFrom stream) := by
  unfold readFrom TokenStream.shift
  simp only
  rw [feedAll_shift]
  cases phase.feedAll stream.tokens with
  | error e => rfl
  | ok after =>
      cases stream.ending with
      | eof line => exact after.finish_shift line
      | fault line fault => rfl

/-! ## On other lines -/

namespace Shift

variable {f : Int → Int} {zero : f 0 = 0}

theorem shiftRoot_lines (node : Node) : node.shiftRoot (lines f zero) = node.mapLines f := by
  cases node with
  | program line statements =>
      simp only [Node.shiftRoot, root, lines, Node.mapLines, mapLinesEach_eq_map]
  | _ => rfl

/-- The tokens of a program on other lines are read as the program on these lines. -/
theorem parse_lines (stream : TokenStream) :
    (stream.shift (lines f zero)).parse = shiftRead (lines f zero) stream.parse :=
  Phase.start.readFrom_shift (S := lines f zero) stream

/-- No lines. -/
def unlined : Shift := lines (fun _ => 0) rfl

theorem shiftRoot_unlined (node : Node) : node.shiftRoot unlined = node.unlined :=
  shiftRoot_lines node

/-- A complete stream without its lines is read as the program without its lines, or refused for the
same reason. -/
theorem parse_unlined {stream : TokenStream} {last : Int} (ending : stream.ending = .eof last) :
    stream.unlined.parse = shiftRead unlined stream.parse := by
  have same : stream.unlined = stream.shift unlined := by
    rw [TokenStream.unlined, TokenStream.shift, ending]
    rfl
  rw [same]
  exact parse_lines stream

theorem exists_of_parse_unlined {stream : TokenStream} {last : Int} {program : Node}
    (ending : stream.ending = .eof last) (read : stream.unlined.parse = .ok program) :
    ∃ again, stream.parse = .ok again ∧ again.unlined = program := by
  rw [parse_unlined ending] at read
  cases parsed : stream.parse with
  | error e =>
      rw [parsed] at read
      cases read
  | ok again =>
      rw [parsed] at read
      cases read
      exact ⟨again, rfl, (shiftRoot_unlined again).symm⟩

end Shift

/-! ## Behind other statements -/

namespace Shift

variable {line : Int} {front : List Node}

theorem fault_behind (fault : ReadFault) : fault.shift (behind line front) = fault := by
  cases fault <;> rfl

theorem error_behind (e : ReadError) : e.shift (behind line front) = e := by
  cases e with
  | malformed line fault => exact congrArg (ReadError.malformed line) (fault_behind fault)
  | notANumeral text => rfl

theorem stream_behind (stream : TokenStream) : stream.shift (behind line front) = stream := by
  obtain ⟨tokens, ending⟩ := stream
  have same : tokens.map (Token.shift (behind line front)) = tokens := List.map_id tokens
  cases ending with
  | eof last =>
      rw [TokenStream.shift, same]
      rfl
  | fault last cause =>
      rw [TokenStream.shift, same, Ending.shift, fault_behind]
      rfl

theorem shiftRoot_behind (last : Int) (statements : List Node) :
    (Node.program last statements).shiftRoot (behind line front) =
      .program line (front ++ statements) := by
  have same : statements.map (Node.mapLines id) = statements :=
    (List.map_congr_left fun node _ => node.mapLines_id).trans (List.map_id statements)
  simp only [Node.shiftRoot, root, behind, same]

end Shift

end Treewalk

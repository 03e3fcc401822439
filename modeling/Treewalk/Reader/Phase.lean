import Treewalk.Number.Decimal
import Treewalk.Reader.Slot
import Treewalk.Source.Stream

/-!
# Reading programs

A reader is a machine that is fed one token at a time. Its state, a `Phase`, is a tree under
construction and what may come next in it; `Phase.feed` is one step, and `TokenStream.parse` feeds a
whole stream.

Since every token is looked at once, in the state that the tokens before it have led to, an error
depends on nothing behind the token it is found at: errors of the source further on never hide it.
-/

namespace Treewalk

/-- What may come next. -/
inductive Phase where
  /-- Nothing has been read. -/
  | start
  /-- A statement, a semicolon, or the end of the list. -/
  | statement (list : ListSlot)
  /-- An expression. -/
  | operand (slot : ExprSlot)
  /-- An expression, or the end of the enclosing list of expressions. -/
  | operandOrEnd (slot : ExprSlot)
  /-- Anything that may follow the operand `left`. -/
  | operator (left : Node) (slot : ExprSlot)
  /-- The name that `let` binds. -/
  | bindingName (line : Int) (list : ListSlot)
  /-- The equals sign of a binding. -/
  | bindingEquals (line : Int) (name : Name) (list : ListSlot)
  /-- The value of a `return`, or its end. -/
  | resultOrEnd (line : Int) (list : ListSlot)
  /-- The opening parenthesis of a parameter list. -/
  | parameters (line : Int) (outer : ExprSlot)
  /-- A parameter, or the end of the parameter list. -/
  | parameterOrEnd (line : Int) (before : List Name) (outer : ExprSlot)
  /-- A comma, or the end of the parameter list. -/
  | parameterEnd (line : Int) (before : List Name) (outer : ExprSlot)
  /-- The opening brace of a block. -/
  | opening (slot : BlockSlot)
  /-- Anything that may follow a conditional, `else` included. -/
  | afterThen (line : Int) (condition consequence : Node) (outer : IfSlot)
  /-- What stands after `else`. -/
  | afterElse (line : Int) (condition consequence : Node) (elseLine : Int) (outer : IfSlot)
  /-- Nothing: the program is complete. -/
  | done (program : Node)

/-- A step of the reader. -/
abbrev Step := Except ReadError Phase

namespace Step

/-- Stop because of a token. -/
def stop (t : Token) (fault : ReadFault) : Step :=
  .error (.malformed t.line fault)

/-- Stop because a mark does not stand where it must. -/
def expected (mark : String) (t : Token) : Step :=
  stop t (.expected mark t)

end Step

/-- How strongly a token binds what stands before it. -/
def Token.level (t : Token) : Nat :=
  if t.kind = .operator ∨ t.kind = .keyword then operatorLevel t.text else 0

/-- The word that tells how an expression starts: the kind of a number, text or name, and the text of
any other token. -/
def Token.opener (t : Token) : String :=
  match t.kind with
  | .number => "number"
  | .text => "string"
  | .name => "ident"
  | _ => t.text

/-- Start an expression. -/
def ExprSlot.begin (slot : ExprSlot) (t : Token) : Step :=
  if t.kind = .eof then Step.stop t (.unexpectedToken t)
  else
    match t.opener with
    | "number" =>
      match Number.ofText? t.text with
      | some value => .ok (.operator (.number t.line value t.text) slot)
      | none => .error (.notANumeral t.text)
    | "string" => .ok (.operator (.text t.line t.text) slot)
    | "ident" => .ok (.operator (.identifier t.line t.text) slot)
    | "true" => .ok (.operator (.boolean t.line true) slot)
    | "false" => .ok (.operator (.boolean t.line false) slot)
    | "!" | "-" => .ok (.operand (.unary t.line t.text slot))
    | "(" => .ok (.operand (.group slot))
    | "if" => .ok (.operand (.condition t.line (.operand slot)))
    | "fn" => .ok (.parameters t.line slot)
    | "[" => .ok (.operandOrEnd (.item t.line [] slot))
    | "\x7b" => .ok (.operandOrEnd (.entryKey t.line [] slot))
    | _ => Step.stop t (.unexpectedToken t)

/-- The end of a list of expressions, if the token is the one that closes it. -/
def ExprSlot.end? (slot : ExprSlot) (t : Token) : Option Phase :=
  match slot with
  | .argument line callee before outer =>
    if t.spells ")" then some (.operator (.call line callee before) outer) else none
  | .item line before outer =>
    if t.spells "]" then some (.operator (.array line before) outer) else none
  | .entryKey line before outer =>
    if t.spells "\x7d" then some (.operator (.hash line before) outer) else none
  | _ => none

/-- Put a block in its place. -/
def BlockSlot.fill (block : Node) : BlockSlot → Phase
  | .thenBlock line condition outer => .afterThen line condition block outer
  | .elseBlock line condition consequence outer =>
    let (node, slot) := outer.fill (.conditional line condition consequence (some block))
    .operator node slot
  | .body line parameters outer => .operator (.function line parameters block) outer

/-- Start a block. -/
def BlockSlot.begin (slot : BlockSlot) (t : Token) : Step :=
  if t.spells "\x7b" then .ok (.statement (.block t.line [] slot)) else Step.expected "\x7b" t

/-- Start a statement. -/
def ListSlot.beginStatement (list : ListSlot) (t : Token) : Step :=
  if t.spells "let" then .ok (.bindingName t.line list)
  else if t.spells "return" then .ok (.resultOrEnd t.line list)
  else (ExprSlot.statement t.line list).begin t

/-- Go on with a list of statements: pass over a semicolon, end the list or start a statement. -/
def ListSlot.next (list : ListSlot) (t : Token) : Step :=
  if t.spells ";" then .ok (.statement list)
  else
    match list with
    | .program line before =>
      if t.kind = .eof then .ok (.done (.program line before)) else list.beginStatement t
    | .block line before outer =>
      if t.spells "\x7d" then .ok (outer.fill (.block line before))
      else if t.kind = .eof then .error (.malformed line .unterminatedBlock)
      else list.beginStatement t

/-- Go on behind the operand `left` with an operator that takes it as its own operand. -/
def ExprSlot.extend (left : Node) (slot : ExprSlot) (t : Token) : Phase :=
  match t.text with
  | "(" => .operandOrEnd (.argument t.line left [] slot)
  | "[" => .operand (.position t.line left slot)
  | operator => .operand (.binary t.line left operator slot)

/-- Go on behind the operand `left`. If the token does not extend it, it fills the open place, and the
token has to go on with the larger piece. -/
def ExprSlot.next (left : Node) (slot : ExprSlot) (t : Token) : Step :=
  if slot.level < t.level then .ok (slot.extend left t)
  else
    match slot with
    | .statement line list => (list.add (.expression line left)).next t
    | .binding line name list => (list.add (.binding line name left)).next t
    | .result line list => (list.add (.result line (some left))).next t
    | .unary line operator outer => outer.next (.unary line operator left) t
    | .binary line before operator outer => outer.next (.joined line before operator left) t
    | .group outer => if t.spells ")" then .ok (.operator left outer) else Step.expected ")" t
    | .argument line callee before outer =>
      if t.spells ")" then .ok (.operator (.call line callee (before ++ [left])) outer)
      else if t.spells "," then .ok (.operandOrEnd (.argument line callee (before ++ [left]) outer))
      else Step.expected "," t
    | .item line before outer =>
      if t.spells "]" then .ok (.operator (.array line (before ++ [left])) outer)
      else if t.spells "," then .ok (.operandOrEnd (.item line (before ++ [left]) outer))
      else Step.expected "," t
    | .entryKey line before outer =>
      if t.spells ":" then .ok (.operand (.entryValue line before left outer)) else Step.expected ":" t
    | .entryValue line before key outer =>
      if t.spells "\x7d" then .ok (.operator (.hash line (before ++ [(key, left)])) outer)
      else if t.spells "," then .ok (.operandOrEnd (.entryKey line (before ++ [(key, left)]) outer))
      else Step.expected "," t
    | .position line subject outer =>
      if t.spells "]" then .ok (.operator (.index line subject left) outer) else Step.expected "]" t
    | .condition line outer => (BlockSlot.thenBlock line left outer).begin t

/-- One step of the reader. -/
def Phase.feed (phase : Phase) (t : Token) : Step :=
  match phase with
  | .start => (ListSlot.program t.line []).next t
  | .statement list => list.next t
  | .operand slot => slot.begin t
  | .operandOrEnd slot =>
    match slot.end? t with
    | some phase => .ok phase
    | none => slot.begin t
  | .operator left slot => slot.next left t
  | .bindingName line list =>
    if t.kind = .name then .ok (.bindingEquals line ⟨t.line, t.text⟩ list)
    else Step.stop t (.expectedName t)
  | .bindingEquals line name list =>
    if t.spells "=" then .ok (.operand (.binding line name list)) else Step.expected "=" t
  | .resultOrEnd line list =>
    if t.spells ";" || t.spells "\x7d" || t.kind == .eof then
      (list.add (.result line none)).next t
    else (ExprSlot.result line list).begin t
  | .parameters line outer =>
    if t.spells "(" then .ok (.parameterOrEnd line [] outer) else Step.expected "(" t
  | .parameterOrEnd line before outer =>
    if t.spells ")" then .ok (.opening (.body line before outer))
    else if t.kind = .name then .ok (.parameterEnd line (before ++ [⟨t.line, t.text⟩]) outer)
    else Step.stop t (.expectedParameter t)
  | .parameterEnd line before outer =>
    if t.spells ")" then .ok (.opening (.body line before outer))
    else if t.spells "," then .ok (.parameterOrEnd line before outer)
    else Step.expected "," t
  | .opening slot => slot.begin t
  | .afterThen line condition consequence outer =>
    if t.spells "else" then .ok (.afterElse line condition consequence t.line outer)
    else
      let (node, slot) := outer.fill (.conditional line condition consequence none)
      slot.next node t
  | .afterElse line condition consequence elseLine outer =>
    if t.spells "if" then
      .ok (.operand (.condition t.line (.elseIf line condition consequence elseLine outer)))
    else (BlockSlot.elseBlock line condition consequence outer).begin t
  | .done program => .ok (.done program)

/-- Feed a row of tokens. -/
def Phase.feedAll (phase : Phase) (row : List Token) : Step :=
  row.foldlM Phase.feed phase

/-- End the input on `line`. -/
def Phase.finish (phase : Phase) (line : Int) : Except ReadError Node :=
  match phase.feed (.eof line) with
  | .ok (.done program) => .ok program
  | .ok _ => .error (.malformed line (.unexpectedToken (.eof line)))
  | .error e => .error e

/-- The program that a stream spells. -/
def TokenStream.parse (stream : TokenStream) : Except ReadError Node :=
  match Phase.start.feedAll stream.tokens with
  | .error e => .error e
  | .ok phase =>
    match stream.ending with
    | .eof line => phase.finish line
    | .fault line fault => .error (.malformed line fault)

/-- The program that a source text spells. -/
def parse (source : String) : Except ReadError Node :=
  (TokenStream.ofSource source).parse

end Treewalk

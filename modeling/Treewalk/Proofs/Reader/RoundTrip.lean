import Treewalk.Proofs.Reader.Exact
import Treewalk.Proofs.Reader.Shift
import Treewalk.Proofs.Source.Scan

/-!
# What is written reads back

A tree is written with parentheses around every operator and with a semicolon behind every binding and
result. Read again, the text gives the tree it was written from, apart from lines, if in every list of
statements an expression stands at the end only: two expressions in a row have nothing between them
that would keep them apart.

The proof goes by the rules of the grammar. For each phrase it finds the tokens that the phrase is
written with (`Phrase.Written`): they spell the phrase again, and the scanner finds them in the text.
-/

namespace Treewalk

open TokenStream

/-! ## Pieces of text -/

/-- A piece of source has the tokens `row` wherever a delimiter follows it. -/
def Scans (cs : List Char) (row : List Token) : Prop :=
  ∀ rest, Delimited rest → scan (cs ++ rest) = (scan rest).prepend row

namespace Scans

variable {cs ds : List Char} {row more : List Token}

theorem nil : Scans [] [] := fun _ _ => rfl

/-- Two pieces with a blank between them. -/
theorem blank (first : Scans cs row) (second : Scans ds more) :
    Scans (cs ++ ' ' :: ds) (row ++ more) := by
  intro rest delimited
  rw [List.append_assoc, List.cons_append, first _ (delimited_cons (by decide) _), scan_space,
    second rest delimited, prepend_prepend]

/-- A piece with a mark in front. -/
theorem behind {c : Char} (mark : c ∈ marks) (second : Scans ds more) :
    Scans (c :: ds) (.fixed (String.singleton c) :: more) := by
  intro rest delimited
  rw [List.cons_append, scan_mark mark, second rest delimited, prepend_prepend]
  rfl

/-- Two pieces with a mark between them. -/
theorem around {c : Char} (separator : c ∈ separators) (first : Scans cs row) (second : Scans ds more) :
    Scans (cs ++ c :: ds) (row ++ .fixed (String.singleton c) :: more) := by
  intro rest delimited
  have ends := delimited_cons (mem_delimiters_of_mem_separators separator) (ds ++ rest)
  rw [List.append_assoc, List.cons_append, first _ ends, ← List.cons_append,
    behind (mem_marks_of_mem_separators separator) second rest delimited, prepend_prepend]

/-- A piece with a mark behind it. -/
theorem closed {c : Char} (separator : c ∈ separators) (first : Scans cs row) :
    Scans (cs ++ [c]) (row ++ [.fixed (String.singleton c)]) :=
  first.around separator nil

/-- A word in front of a delimiter. -/
theorem word {word : String} (member : word ∈ words) : Scans word.toList [.fixed word] :=
  fun _ => scan_word member

/-- The tokens of a piece stand on no line. -/
theorem line_eq_zero (scans : Scans cs row) : ∀ t ∈ row, t.line = 0 := by
  have whole := scans [] nofun
  rw [List.append_nil, scan_nil] at whole
  have tokens : (ofChars 0 cs).tokens.map Token.unlined = row := by
    simpa [scan, unlined, prepend] using congrArg TokenStream.tokens whole
  intro t member
  rw [← tokens] at member
  obtain ⟨_, -, rfl⟩ := List.mem_map.mp member
  rfl

end Scans

/-! ## Phrases as they are written -/

/-- What holds together as an operand does can stand where any expression can. -/
theorem Spells.loose {node : Node} {row : List Token} (spells : Spells (.expr 8 node) row) :
    Spells (.expr 1 node) row :=
  spells.weaken (by decide)

def Node.isExpression : Node → Bool
  | .expression .. => true
  | _ => false

/-- A list of statements in which an expression stands at the end only. -/
def ExpressionLast (statements : List Node) : Prop :=
  ∀ node ∈ statements.dropLast, node.isExpression = false

namespace ExpressionLast

variable {node : Node} {nodes : List Node}

theorem tail (last : ExpressionLast (node :: nodes)) : ExpressionLast nodes := by
  cases nodes with
  | nil => exact nofun
  | cons next nodes => exact fun other member => last other (List.mem_cons_of_mem node member)

theorem eq_nil_of_expression {line : Int} {inner : Node}
    (last : ExpressionLast (.expression line inner :: nodes)) : nodes = [] := by
  cases nodes with
  | nil => rfl
  | cons next nodes => exact nomatch last _ List.mem_cons_self

end ExpressionLast

/-- A node whose own statements have an expression at the end only. -/
def Node.Tidy (node : Node) : Prop := ExpressionLast node.statements

instance : DecidablePred Node.Tidy := fun node =>
  inferInstanceAs (Decidable (∀ other ∈ node.statements.dropLast, other.isExpression = false))

namespace Phrase

/-- The text of a phrase. A statement is taken without the semicolon at its end. -/
@[simp]
def written : Phrase → String
  | .expr _ node | .conditional node => node.render
  | .block node => braced (" " ++ node.render ++ " ")
  | .statement (.binding _ name value) => "let " ++ name.text ++ " = " ++ value.render
  | .statement (.result _ (some value)) => "return " ++ value.render
  | .statement node => node.render
  | .statements nodes => String.join (renderEach nodes)
  | .items nodes => commaSeparated (renderEach nodes)
  | .entries pairs => commaSeparated (renderEntries pairs)
  | .parameters names => commaSeparated (names.map Name.text)

/-- The phrase that the text spells: lines are lost, and every expression holds together as an operand
does. -/
@[simp]
def plain : Phrase → Phrase
  | .expr _ node => .expr 8 node.unlined
  | .conditional node => .conditional node.unlined
  | .block node => .block node.unlined
  | .statement node => .statement node.unlined
  | .statements nodes => .statements (nodes.map Node.unlined)
  | .items nodes => .items (nodes.map Node.unlined)
  | .entries pairs => .entries (pairs.map fun entry => (entry.1.unlined, entry.2.unlined))
  | .parameters names => .parameters (names.map (Name.mapLine fun _ => 0))

/-- The tokens that a phrase is written with. -/
structure Written (phrase : Phrase) (row : List Token) : Prop where
  spells : Spells phrase.plain row
  scans : Scans phrase.written.toList row

def Writable (phrase : Phrase) : Prop := ∃ row, phrase.Written row

variable {level : Nat} {node left right condition consequence alternative : Node} {line : Int}

/-! ## Operands and operators -/

theorem writable_verbatim {t : Token} (verbatim : t.Verbatim)
    (kind : t.kind = .number ∨ t.kind = .name) (text : node.render = t.text)
    (spells : Spells (.expr 8 node.unlined) [t.unlined]) : Writable (.expr level node) := by
  refine ⟨[t.unlined], spells, ?_⟩
  intro rest delimited
  rw [written, text]
  exact scan_verbatim verbatim kind delimited

theorem writable_word (word : String) (member : word ∈ words) (text : node.render = word)
    (spells : Spells (.expr 8 node.unlined) [.fixed word]) : Writable (.expr level node) := by
  refine ⟨[.fixed word], spells, ?_⟩
  intro rest delimited
  rw [written, text]
  exact scan_word member delimited

theorem writable_text (value : String) : Writable (.expr level (.text line value)) :=
  ⟨[⟨.text, value, 0⟩], Spells.text (t := ⟨.text, value, 0⟩) rfl, fun rest _ => scan_text value rest⟩

/-- An expression that is written in parentheses. -/
theorem writable_group {inside : String} {row : List Token} (text : node.render = "(" ++ inside ++ ")")
    (spells : Spells (.expr 1 node.unlined) row) (scans : Scans inside.toList row) :
    Writable (.expr level node) := by
  refine ⟨.fixed "(" :: (row ++ [Token.fixed ")"]),
    .group (Token.spells_fixed _) spells (Token.spells_fixed _), ?_⟩
  have closed := Scans.behind (c := '(') (by decide)
    (scans.closed (c := ')') (by decide))
  simpa [text] using closed

/-- The operators of two operands are written as words. -/
theorem mem_words_of_mem_binaryOperators {operator : String}
    (member : operator ∈ binaryOperators level) : operator ∈ words := by
  have each : ∀ level < 7, ∀ operator ∈ binaryOperators level, operator ∈ words := by decide
  exact each level (mem_binaryOperators_iff.mp member).2.2 operator member

theorem writable_joined {operator : String} (member : operator ∈ binaryOperators level)
    (leftWritable : Writable (.expr level left)) (rightWritable : Writable (.expr (level + 1) right)) :
    Writable (.expr level (.joined line left operator right)) := by
  obtain ⟨row, spells, scans⟩ := leftWritable
  obtain ⟨more, spellsMore, scansMore⟩ := rightWritable
  have bounds := (mem_binaryOperators_iff.mp member).2
  have text : (Node.joined line left operator right).render =
      "(" ++ (left.render ++ " " ++ operator ++ " " ++ right.render) ++ ")" := by
    unfold Node.joined
    split <;> simp [Node.render, String.append_assoc]
  have operated : Spells (.expr level (Node.joined line left operator right).unlined)
      (row ++ .fixed operator :: more) := by
    rw [Node.unlined, Node.mapLines_joined]
    exact .binary member (spells.weaken (by omega)) (Token.spells_fixed operator)
      (spellsMore.weaken (by omega))
  have word := Scans.word (mem_words_of_mem_binaryOperators member)
  refine writable_group text (operated.weaken bounds.1) ?_
  simpa using scans.blank (word.blank scansMore)

/-- No expression begins with an equals sign, so none goes on with a mark in front of it. -/
theorem Written.apart {row : List Token} (written : Written (.expr level node) row) :
    node.render.toList.head? ≠ some '=' := by
  intro begins
  obtain ⟨t, more, rfl, opens⟩ := written.spells.opens trivial
  cases chars : node.render.toList with
  | nil => simp [chars] at begins
  | cons c cs =>
      have same : c = '=' := by simpa [chars] using begins
      obtain ⟨rest, mark, member, scanned⟩ := scan_equals cs
      have whole := written.scans [] nofun
      rw [List.append_nil, Phrase.written, chars, same, scanned, scan_nil] at whole
      have first : Token.fixed mark = t := by
        simpa [prepend] using congrArg (fun stream => stream.tokens.head?) whole
      have others : ∀ mark ∈ ["=", "=="], mark ∉ openers := by decide
      have closed := opens.spells_eq_false (others mark member)
      rw [← first, Token.spells_fixed] at closed
      cases closed

theorem writable_unary {operator : String} {operand : Node} (member : operator ∈ ["!", "-"])
    (writable : Writable (.expr 7 operand)) : Writable (.expr level (.unary line operator operand)) := by
  obtain ⟨row, written⟩ := writable
  have marked : Spells (.expr 7 (.unary 0 operator operand.unlined)) (.fixed operator :: row) :=
    .unary member (Token.spells_fixed operator) (.weaker written.spells)
  have text : (Node.unary line operator operand).render =
      "(" ++ (operator ++ operand.render) ++ ")" := by
    simp [Node.render, String.append_assoc]
  refine writable_group text (marked.weaken (by decide)) ?_
  rw [String.toList_append]
  rcases List.mem_cons.mp member with rfl | minus
  · intro rest delimited
    -- Behind `!` an equals sign would make another mark.
    have apart : (operand.render.toList ++ rest).head? ≠ some '=' := by
      cases chars : operand.render.toList with
      | nil =>
          intro begins
          exact absurd (delimited '=' begins) (by decide)
      | cons c cs =>
          have first := written.apart
          rw [chars] at first
          exact first
    have shape : "!".toList ++ operand.render.toList ++ rest =
        '!' :: (operand.render.toList ++ rest) := rfl
    rw [shape, scan_bang apart]
    exact (congrArg _ (written.scans rest delimited)).trans (prepend_prepend _ _ _)
  · rw [List.mem_singleton.mp minus]
    exact written.scans.behind (by decide)

theorem writable_call {callee : Node} {arguments : List Node} (writable : Writable (.expr 8 callee))
    (argumentsWritable : Writable (.items arguments)) :
    Writable (.expr level (.call line callee arguments)) := by
  obtain ⟨row, spells, scans⟩ := writable
  obtain ⟨more, spellsMore, scansMore⟩ := argumentsWritable
  refine ⟨row ++ .fixed "(" :: (more ++ [Token.fixed ")"]), ?_, ?_⟩
  · have called := Spells.call spells (Token.spells_fixed "(") spellsMore (Token.spells_fixed ")")
    simpa [Node.unlined_eq, Node.mapLines] using called
  · have closed := scansMore.closed (c := ')') (by decide)
    simpa [Node.render] using scans.around (c := '(') (by decide) closed

theorem writable_index {subject position : Node} (writable : Writable (.expr 8 subject))
    (positionWritable : Writable (.expr 1 position)) :
    Writable (.expr level (.index line subject position)) := by
  obtain ⟨row, spells, scans⟩ := writable
  obtain ⟨more, spellsMore, scansMore⟩ := positionWritable
  have indexed : Spells (.expr 8 (.index 0 subject.unlined position.unlined))
      (row ++ .fixed "[" :: (more ++ [Token.fixed "]"])) :=
    .index spells (Token.spells_fixed "[") spellsMore.loose (Token.spells_fixed "]")
  have text : (Node.index line subject position).render =
      "(" ++ (subject.render ++ "[" ++ position.render ++ "]") ++ ")" := by
    simp [Node.render, String.append_assoc]
  refine writable_group text indexed.loose ?_
  have closed := scansMore.closed (c := ']') (by decide)
  simpa using scans.around (c := '[') (by decide) closed

theorem writable_array {items : List Node} (writable : Writable (.items items)) :
    Writable (.expr level (.array line items)) := by
  obtain ⟨row, spells, scans⟩ := writable
  refine ⟨.fixed "[" :: (row ++ [Token.fixed "]"]), ?_, ?_⟩
  · have array := Spells.array (Token.spells_fixed "[") spells (Token.spells_fixed "]")
    simpa [Node.unlined_eq, Node.mapLines] using array
  · have closed := scans.closed (c := ']') (by decide)
    simpa [Node.render] using closed.behind (c := '[') (by decide)

theorem writable_hash {pairs : List (Node × Node)} (writable : Writable (.entries pairs)) :
    Writable (.expr level (.hash line pairs)) := by
  obtain ⟨row, spells, scans⟩ := writable
  refine ⟨.fixed "\x7b" :: (row ++ [Token.fixed "\x7d"]), ?_, ?_⟩
  · have hash := Spells.hash (Token.spells_fixed "\x7b") spells (Token.spells_fixed "\x7d")
    simpa [Node.unlined_eq, Node.mapLines] using hash
  · have closed := scans.closed (c := '\x7d') (by decide)
    simpa [Node.render, braced] using closed.behind (c := '\x7b') (by decide)

theorem writable_block {nodes : List Node} (writable : Writable (.statements nodes)) :
    Writable (.block (.block line nodes)) := by
  obtain ⟨row, spells, scans⟩ := writable
  refine ⟨.fixed "\x7b" :: (row ++ [Token.fixed "\x7d"]), ?_, ?_⟩
  · have block := Spells.block (Token.spells_fixed "\x7b") spells (Token.spells_fixed "\x7d")
    simpa [Node.unlined_eq, Node.mapLines] using block
  · have closed := Scans.nil.blank (scans.blank (Scans.nil.behind (c := '\x7d') (by decide)))
    simpa [Node.render, braced] using closed.behind (c := '\x7b') (by decide)

theorem writable_ifThen (conditionWritable : Writable (.expr 1 condition))
    (consequenceWritable : Writable (.block consequence)) :
    Writable (.conditional (.conditional line condition consequence none)) := by
  obtain ⟨row, spells, scans⟩ := conditionWritable
  obtain ⟨more, spellsMore, scansMore⟩ := consequenceWritable
  refine ⟨.fixed "if" :: (row ++ more), ?_, ?_⟩
  · have conditional := Spells.ifThen (Token.spells_fixed "if") spells.loose spellsMore
    simpa [Node.unlined_eq, Node.mapLines] using conditional
  · have word := Scans.word (show "if" ∈ words by decide)
    simpa [Node.render] using word.blank (scans.blank scansMore)

theorem writable_ifElse (conditionWritable : Writable (.expr 1 condition))
    (consequenceWritable : Writable (.block consequence))
    (alternativeWritable : Writable (.block alternative)) :
    Writable (.conditional (.conditional line condition consequence (some alternative))) := by
  obtain ⟨row, spells, scans⟩ := conditionWritable
  obtain ⟨more, spellsMore, scansMore⟩ := consequenceWritable
  obtain ⟨last, spellsLast, scansLast⟩ := alternativeWritable
  refine ⟨.fixed "if" :: (row ++ (more ++ .fixed "else" :: last)), ?_, ?_⟩
  · have conditional := Spells.ifElse (Token.spells_fixed "if") spells.loose spellsMore
      (Token.spells_fixed "else") spellsLast
    simpa [Node.unlined_eq, Node.mapLines] using conditional
  · have word := Scans.word (show "if" ∈ words by decide)
    have other := Scans.word (show "else" ∈ words by decide)
    simpa [Node.render] using
      word.blank (scans.blank (scansMore.blank (other.blank scansLast)))

theorem writable_function {names : List Name} {body : Node}
    (parametersWritable : Writable (.parameters names)) (bodyWritable : Writable (.block body)) :
    Writable (.expr level (.function line names body)) := by
  obtain ⟨row, spells, scans⟩ := parametersWritable
  obtain ⟨more, spellsMore, scansMore⟩ := bodyWritable
  refine ⟨.fixed "fn" :: .fixed "(" :: (row ++ .fixed ")" :: more), ?_, ?_⟩
  · have function := Spells.function (Token.spells_fixed "fn") (Token.spells_fixed "(") spells
      (Token.spells_fixed ")") spellsMore
    simpa [Node.unlined_eq, Node.mapLines] using function
  · have word := Scans.word (show "fn" ∈ words by decide)
    have parameters := scans.around (c := ')') (by decide) (Scans.nil.blank scansMore)
    simpa [Node.render, renderParameters] using
      word.around (c := '(') (by decide) parameters

/-! ## Lists -/

theorem scans_comma {piece next : String} {pieces : List String} {row more : List Token}
    (first : Scans piece.toList row) (second : Scans (commaSeparated (next :: pieces)).toList more) :
    Scans (commaSeparated (piece :: next :: pieces)).toList (row ++ .fixed "," :: more) := by
  have both := first.around (c := ',') (by decide) (Scans.nil.blank second)
  simpa [commaSeparated] using both

theorem writable_noItems : Writable (.items []) := ⟨[], .noItems, Scans.nil⟩

theorem writable_item {nodes : List Node} (writable : Writable (.expr 1 node))
    (rest : Writable (.items nodes)) : Writable (.items (node :: nodes)) := by
  obtain ⟨row, spells, scans⟩ := writable
  obtain ⟨more, spellsMore, scansMore⟩ := rest
  cases nodes with
  | nil =>
      refine ⟨row, .lastItem spells.loose, ?_⟩
      simpa [renderEach, commaSeparated] using scans
  | cons next nodes =>
      exact ⟨row ++ .fixed "," :: more, .item spells.loose (Token.spells_fixed _) spellsMore,
        scans_comma scans scansMore⟩

theorem writable_noEntries : Writable (.entries []) := ⟨[], .noEntries, Scans.nil⟩

theorem writable_entry {key value : Node} {pairs : List (Node × Node)}
    (keyWritable : Writable (.expr 1 key)) (valueWritable : Writable (.expr 1 value))
    (rest : Writable (.entries pairs)) : Writable (.entries ((key, value) :: pairs)) := by
  obtain ⟨row, spells, scans⟩ := keyWritable
  obtain ⟨more, spellsMore, scansMore⟩ := valueWritable
  obtain ⟨last, spellsLast, scansLast⟩ := rest
  have entry : Scans (key.render ++ ": " ++ value.render).toList (row ++ .fixed ":" :: more) := by
    have both := scans.around (c := ':') (by decide) (Scans.nil.blank scansMore)
    simpa using both
  cases pairs with
  | nil =>
      refine ⟨row ++ .fixed ":" :: more,
        .lastEntry spells.loose (Token.spells_fixed _) spellsMore.loose, ?_⟩
      simpa [renderEntries, commaSeparated] using entry
  | cons next pairs =>
      refine ⟨row ++ .fixed ":" :: (more ++ .fixed "," :: last),
        .entry spells.loose (Token.spells_fixed _) spellsMore.loose (Token.spells_fixed _) spellsLast,
        ?_⟩
      simpa [renderEntries] using scans_comma entry scansLast

theorem writable_noParameters : Writable (.parameters []) := ⟨[], .noParameters, Scans.nil⟩

theorem writable_parameter {name : Token} {names : List Name} (verbatim : name.Verbatim)
    (kind : name.kind = .name) (rest : Writable (.parameters names)) :
    Writable (.parameters (⟨name.line, name.text⟩ :: names)) := by
  obtain ⟨more, spells, scans⟩ := rest
  have scanned : Scans name.text.toList [name.unlined] := fun _ => scan_verbatim verbatim (.inr kind)
  have unlined : name.unlined.kind = .name := kind
  cases names with
  | nil =>
      refine ⟨[name.unlined], .lastParameter unlined, ?_⟩
      simpa [commaSeparated] using scanned
  | cons next names =>
      exact ⟨name.unlined :: .fixed "," :: more, .parameter unlined (Token.spells_fixed _) spells,
        scans_comma scanned scans⟩

/-! ## Statements -/

theorem writable_noStatements : Writable (.statements []) := ⟨[], .noStatements, Scans.nil⟩

theorem writable_binding {name : Token} {value : Node} (verbatim : name.Verbatim)
    (kind : name.kind = .name) (writable : Writable (.expr 1 value)) :
    Writable (.statement (.binding line ⟨name.line, name.text⟩ value)) := by
  obtain ⟨row, spells, scans⟩ := writable
  have unlined : name.unlined.kind = .name := kind
  refine ⟨.fixed "let" :: name.unlined :: .fixed "=" :: row, ?_, ?_⟩
  · exact .binding (Token.spells_fixed "let") unlined (Token.spells_fixed "=") spells.loose
  · have mark := Scans.word (show "let" ∈ words by decide)
    have scanned : Scans name.text.toList [name.unlined] := fun _ => scan_verbatim verbatim (.inr kind)
    have equals := Scans.word (show "=" ∈ words by decide)
    simpa using mark.blank (scanned.blank (equals.blank scans))

theorem writable_result {value : Node} (writable : Writable (.expr 1 value)) :
    Writable (.statement (.result line (some value))) := by
  obtain ⟨row, spells, scans⟩ := writable
  refine ⟨.fixed "return" :: row, ?_, ?_⟩
  · exact .result (Token.spells_fixed "return") spells.loose
  · have mark := Scans.word (show "return" ∈ words by decide)
    simpa using mark.blank scans

theorem writable_expression (writable : Writable (.expr 1 node)) :
    Writable (.statement (.expression line node)) := by
  obtain ⟨row, spells, scans⟩ := writable
  obtain ⟨first, more, rfl, -⟩ := spells.opens trivial
  have zero : first.line = 0 := scans.line_eq_zero first List.mem_cons_self
  refine ⟨first :: more, ?_, ?_⟩
  · have statement := Spells.expression spells.loose
    rw [zero] at statement
    exact statement
  · simpa [Node.render] using scans

/-- A statement that is written with a semicolon at its end, in front of others. -/
theorem writable_statement {nodes : List Node}
    (text : node.render = (Phrase.statement node).written ++ ";") (writable : Writable (.statement node))
    (rest : Writable (.statements nodes)) : Writable (.statements (node :: nodes)) := by
  obtain ⟨row, spells, scans⟩ := writable
  obtain ⟨more, spellsMore, scansMore⟩ := rest
  refine ⟨row ++ .fixed ";" :: more,
    .statement spells ?_ (.semicolon (Token.spells_fixed _) spellsMore), ?_⟩
  · rintro _ ⟨⟩
    exact Token.level_eq_zero_iff.mp rfl
  · have both := scans.around (c := ';') (by decide) scansMore
    simpa [renderEach, text] using both

/-- An expression at the end of its list. -/
theorem writable_lastStatement (text : node.render = (Phrase.statement node).written)
    (writable : Writable (.statement node)) : Writable (.statements [node]) := by
  obtain ⟨row, spells, scans⟩ := writable
  refine ⟨row ++ [], .statement spells nofun .noStatements, ?_⟩
  simpa [renderEach, text] using scans

theorem writable_bareResult {nodes : List Node} (rest : Writable (.statements nodes)) :
    Writable (.statements (.result line none :: nodes)) := by
  obtain ⟨row, spells, scans⟩ := rest
  refine ⟨.fixed "return" :: .fixed ";" :: row, ?_, ?_⟩
  · refine .bareResult (Token.spells_fixed "return") ?_ (.semicolon (Token.spells_fixed ";") spells)
    rintro _ ⟨⟩
    exact Token.spells_fixed ";"
  · have mark := Scans.word (show "return" ∈ words by decide)
    have both := mark.around (c := ';') (by decide) scans
    simpa [renderEach, Node.render] using both

/-! ## All phrases -/

/-- A list of statements has expressions at its end only; nothing is asked of other phrases. -/
def Ordered : Phrase → Prop
  | .statements nodes => ExpressionLast nodes
  | _ => True

/-- Spelled by tokens of a source, with expressions only where a list of statements ends. -/
structure Fit (phrase : Phrase) (ts : List Token) : Prop where
  verbatim : ∀ t ∈ ts, t.Verbatim
  tidy : ∀ node ∈ phrase.nodes, node.Every Node.Tidy
  ordered : phrase.Ordered

namespace Fit

variable {phrase part : Phrase} {ts us : List Token}

/-- A part with trees of the phrase itself. -/
theorem among (fit : phrase.Fit ts) (tokens : ∀ t ∈ us, t ∈ ts)
    (trees : ∀ node ∈ part.nodes, node ∈ phrase.nodes) (ordered : part.Ordered) : part.Fit us :=
  ⟨fun t member => fit.verbatim t (tokens t member),
    fun node member => fit.tidy node (trees node member), ordered⟩

/-- A part with trees right below the one tree of the phrase. -/
theorem below {node : Node} (fit : phrase.Fit ts) (whole : phrase.nodes = [node])
    (tokens : ∀ t ∈ us, t ∈ ts) (trees : ∀ child ∈ part.nodes, child ∈ node.children)
    (ordered : part.Ordered) : part.Fit us :=
  have tidy := fit.tidy node (whole ▸ List.mem_cons_self)
  ⟨fun t member => fit.verbatim t (tokens t member),
    fun child member => tidy.child (trees child member), ordered⟩

end Fit

theorem Writable.expr_of_expr {other : Nat} (writable : Writable (.expr other node)) :
    Writable (.expr level node) := by
  obtain ⟨row, spells, scans⟩ := writable
  exact ⟨row, spells, scans⟩

theorem Writable.expr_of_conditional (writable : Writable (.conditional node)) :
    Writable (.expr level node) := by
  obtain ⟨row, spells, scans⟩ := writable
  exact ⟨row, .conditional spells, scans⟩

/-- Whatever a source spells can be written, if its lists of statements are tidy. -/
theorem writable_of_spells {phrase : Phrase} {ts : List Token} (spells : Spells phrase ts)
    (fit : phrase.Fit ts) : phrase.Writable := by
  induction spells with
  | noStatements => exact writable_noStatements
  | noItems => exact writable_noItems
  | noEntries => exact writable_noEntries
  | noParameters => exact writable_noParameters
  | semicolon _ _ ih => exact ih (fit.among (by simp +contextual) (fun _ => id) fit.ordered)
  | weaker _ ih => exact (ih (fit.among (fun _ => id) (fun _ => id) trivial)).expr_of_expr
  | group _ _ _ ih => exact (ih (fit.among (by simp +contextual) (fun _ => id) trivial)).expr_of_expr
  | conditional _ ih => exact (ih (fit.among (fun _ => id) (fun _ => id) trivial)).expr_of_conditional
  | @number t value kind numeral =>
      exact writable_verbatim (fit.verbatim _ List.mem_cons_self) (.inl kind) rfl
        (Spells.number (t := t.unlined) kind numeral)
  | @identifier t kind =>
      exact writable_verbatim (fit.verbatim _ List.mem_cons_self) (.inr kind) rfl
        (Spells.identifier (t := t.unlined) kind)
  | text => exact writable_text _
  | yes => exact writable_word "true" (by decide) rfl (.yes (Token.spells_fixed "true"))
  | no => exact writable_word "false" (by decide) rfl (.no (Token.spells_fixed "false"))
  | binary member _ _ _ ihLeft ihRight =>
      refine writable_joined member (ihLeft (fit.below rfl (by simp +contextual) ?_ trivial))
        (ihRight (fit.below rfl (by simp +contextual) ?_ trivial))
      · simp only [Node.joined, nodes]
        split <;> simp [Node.children]
      · simp only [Node.joined, nodes]
        split <;> simp [Node.children]
  | unary member _ _ ih =>
      exact writable_unary member (ih (fit.below rfl (by simp +contextual) (fun _ => id) trivial))
  | call _ _ _ _ ihCallee ih =>
      exact writable_call
        (ihCallee (fit.below rfl (by simp +contextual) (by simp [nodes, Node.children]) trivial))
        (ih (fit.below rfl (by simp +contextual) (fun _ => List.mem_cons_of_mem _) trivial))
  | index _ _ _ _ ihSubject ih =>
      exact writable_index
        (ihSubject (fit.below rfl (by simp +contextual) (by simp [nodes, Node.children]) trivial))
        (ih (fit.below rfl (by simp +contextual) (by simp [nodes, Node.children]) trivial))
  | function _ _ _ _ _ ihParameters ih =>
      exact writable_function
        (ihParameters ⟨fun t member => fit.verbatim t (by simp [member]), by simp [nodes], trivial⟩)
        (ih (fit.below rfl (by simp +contextual) (fun _ => id) trivial))
  | array _ _ _ ih =>
      exact writable_array (ih (fit.below rfl (by simp +contextual) (fun _ => id) trivial))
  | hash _ _ _ ih =>
      exact writable_hash (ih (fit.below rfl (by simp +contextual) (fun _ => id) trivial))
  | block _ _ _ ih =>
      exact writable_block (ih (fit.below rfl (by simp +contextual) (fun _ => id)
        (fit.tidy _ List.mem_cons_self).here))
  | ifThen _ _ _ ihCondition ih =>
      exact writable_ifThen
        (ihCondition (fit.below rfl (by simp +contextual) (by simp [nodes, Node.children]) trivial))
        (ih (fit.below rfl (by simp +contextual) (by simp [nodes, Node.children]) trivial))
  | ifElse _ _ _ _ _ ihCondition ihConsequence ih =>
      exact writable_ifElse
        (ihCondition (fit.below rfl (by simp +contextual) (by simp [nodes, Node.children]) trivial))
        (ihConsequence (fit.below rfl (by simp +contextual) (by simp [nodes, Node.children]) trivial))
        (ih (fit.below rfl (by simp +contextual) (by simp [nodes, Node.children]) trivial))
  | @elseIf _ other _ _ inner _ _ _ _ _ _ _ _ ihCondition ihConsequence ih =>
      -- A conditional behind `else` is written as the block with one statement that it is read as.
      have writable := ih ⟨fun t member => fit.verbatim t (by simp [member]), ?_, trivial⟩
      · exact writable_ifElse
          (ihCondition (fit.below rfl (by simp +contextual) (by simp [nodes, Node.children]) trivial))
          (ihConsequence (fit.below rfl (by simp +contextual) (by simp [nodes, Node.children]) trivial))
          (writable_block
            (writable_lastStatement rfl (writable_expression writable.expr_of_conditional)))
      · intro node member
        rw [List.mem_singleton.mp member]
        have block : (Node.block other.line [.expression inner.line inner]).Every Node.Tidy :=
          (fit.tidy _ List.mem_cons_self).child (by simp [Node.children])
        have statement : (Node.expression inner.line inner).Every Node.Tidy :=
          block.child (by simp [Node.children])
        exact statement.child (by simp [Node.children])
  | binding _ kind _ _ ih =>
      exact writable_binding (fit.verbatim _ (by simp)) kind
        (ih (fit.below rfl (by simp +contextual) (fun _ => id) trivial))
  | result _ _ ih =>
      exact writable_result (ih (fit.below rfl (by simp +contextual) (fun _ => id) trivial))
  | expression _ ih =>
      exact writable_expression (ih (fit.below rfl (fun _ => id) (fun _ => id) trivial))
  | bareResult _ _ _ ih =>
      exact writable_bareResult
        (ih (fit.among (by simp +contextual) (fun _ => List.mem_cons_of_mem _)
          (ExpressionLast.tail fit.ordered)))
  | @statement node nodes _ _ spelled _ _ ih ihRest =>
      have writable := ih (fit.among (by simp +contextual) (by simp [Phrase.nodes]) trivial)
      have rest := ihRest
        (fit.among (by simp +contextual)
          (fun _ => List.mem_cons_of_mem _) (ExpressionLast.tail fit.ordered))
      cases spelled with
      | binding => exact writable_statement rfl writable rest
      | result => exact writable_statement rfl writable rest
      | expression =>
          -- No semicolon is written behind an expression; nothing may follow it.
          rw [ExpressionLast.eq_nil_of_expression fit.ordered]
          exact writable_lastStatement rfl writable
  | lastItem _ ih =>
      exact writable_item (ih (fit.among (fun _ => id) (fun _ => id) trivial)) writable_noItems
  | item _ _ _ ih ihRest =>
      exact writable_item (ih (fit.among (by simp +contextual) (by simp [nodes]) trivial))
        (ihRest (fit.among (by simp +contextual) (fun _ => List.mem_cons_of_mem _) trivial))
  | lastEntry _ _ _ ihKey ih =>
      exact writable_entry (ihKey (fit.among (by simp +contextual) (by simp [nodes]) trivial))
        (ih (fit.among (by simp +contextual) (by simp [nodes]) trivial)) writable_noEntries
  | entry _ _ _ _ _ ihKey ih ihRest =>
      exact writable_entry (ihKey (fit.among (by simp +contextual) (by simp [nodes]) trivial))
        (ih (fit.among (by simp +contextual) (by simp [nodes]) trivial))
        (ihRest (fit.among (by simp +contextual) (fun _ => List.mem_append_right _) trivial))
  | lastParameter kind =>
      exact writable_parameter (fit.verbatim _ List.mem_cons_self) kind writable_noParameters
  | parameter kind _ _ ih =>
      exact writable_parameter (fit.verbatim _ List.mem_cons_self) kind
        (ih (fit.among (by simp +contextual) (fun _ => id) trivial))

end Phrase

/-! ## Programs -/

/-- The text of a program that was read has tokens that spell the program, without lines. -/
theorem parse_scan_render {source : String} {program : Node} (read : parse source = .ok program)
    (tidy : program.Every Node.Tidy) : ∃ row,
      scan program.render.toList = ⟨row, .eof 0⟩ ∧
        (⟨row, .eof 0⟩ : TokenStream).parse = .ok program.unlined := by
  obtain ⟨line, -, nodes, rfl, spells⟩ := spellsProgram_of_parse read
  have fit : (Phrase.statements nodes).Fit (ofSource source).tokens :=
    ⟨verbatim_ofSource, fun node member => tidy.child member, tidy.here⟩
  obtain ⟨row, plain, scans⟩ := Phrase.writable_of_spells spells fit
  have whole : scan (Phrase.statements nodes).written.toList = ⟨row, .eof 0⟩ := by
    have scanned := scans [] nofun
    rw [List.append_nil, scan_nil] at scanned
    simpa [prepend] using scanned
  have zero : (row.head?.map Token.line).getD 0 = 0 := by
    cases row with
    | nil => rfl
    | cons t row => exact scans.line_eq_zero t List.mem_cons_self
  refine ⟨row, whole, parse_eq_ok_iff.mpr ⟨0, rfl, feedAll_of_spellsProgram ⟨_, ?_, plain⟩⟩⟩
  simp [zero, Node.unlined_eq, Node.mapLines]

/-- A program in whose lists of statements an expression stands at the end only reads back from its
text: the text is read, as the same tree apart from lines, and is the text of what is read. -/
theorem rendering_reads_back (source : String) (program : Node) (read : parse source = .ok program)
    (tidy : program.Every Node.Tidy) : ∃ again, parse program.render = .ok again ∧
      again.unlined = program.unlined ∧ again.render = program.render := by
  obtain ⟨row, scanned, parsed⟩ := parse_scan_render read tidy
  have unlined : (ofSource program.render).unlined = ⟨row, .eof 0⟩ :=
    (unlined_ofChars 1 program.render.toList).trans scanned
  obtain ⟨last, ending⟩ : ∃ last, (ofSource program.render).ending = .eof last := by
    have ended := congrArg TokenStream.ending unlined
    simp only [TokenStream.unlined] at ended
    split at ended
    · exact ⟨_, ‹_›⟩
    · cases ended
  rw [← unlined] at parsed
  obtain ⟨again, readAgain, same⟩ := Shift.exists_of_parse_unlined ending parsed
  refine ⟨again, readAgain, same, ?_⟩
  calc again.render
    _ = again.unlined.render := (Node.render_mapLines (every_lineless_of_parse readAgain)).symm
    _ = program.unlined.render := congrArg Node.render same
    _ = program.render := Node.render_mapLines (every_lineless_of_parse read)

/-- A call of a conditional, behind a text with a quote in it. -/
theorem rendering_reads_back_call : ∃ program,
    parse "let s = \"\\\"\" // a quote\nif !s \x7b return \x7d(s)" = .ok program ∧
      program.Every Node.Tidy ∧
      program.render = "let s = \"\\\"\";if (!s) \x7b return; \x7d(s)" ∧
      ∃ again, parse program.render = .ok again ∧ again.unlined = program.unlined ∧
        again.render = program.render := by
  have read : parse "let s = \"\\\"\" // a quote\nif !s \x7b return \x7d(s)" =
      .ok (.program 1 [.binding 1 ⟨1, "s"⟩ (.text 1 "\""), .expression 2 (.call 2
        (.conditional 2 (.unary 2 "!" (.identifier 2 "s")) (.block 2 [.result 2 none]) none)
        [.identifier 2 "s"])]) := by
    cbv
  have tidy := show (Node.program 1 [.binding 1 ⟨1, "s"⟩ (.text 1 "\""), .expression 2 (.call 2
      (.conditional 2 (.unary 2 "!" (.identifier 2 "s")) (.block 2 [.result 2 none]) none)
      [.identifier 2 "s"])]).Every Node.Tidy by
    decide +kernel
  exact ⟨_, read, tidy, rfl, rendering_reads_back _ _ read tidy⟩

end Treewalk

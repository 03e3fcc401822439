import Treewalk.Proofs.Reader.Steps

/-!
# The reader reads all that the grammar derives

`Phrase.Read phrase tokens` says what the reader does with a row of tokens that spells the phrase: fed
with them in any place where the phrase may stand, it comes to the phase that has the phrase's tree in
that place. `Spells.read` proves it of every derivation, one rule at a time, and
`parse_of_spellsProgram` is the case of a whole program.

The reader decides by the next token when an expression ends, so what it does with an expression is
said for a next token that may follow one of its level.
-/

namespace Treewalk

/-- A token that may stand behind an expression of a level. It does not bind more strongly than the
level; behind the strongest, everything may stand but an `else`, which would belong to it. -/
def Token.Follows (t : Token) (level : Nat) : Prop :=
  min t.level 8 ≤ level ∧ t.spells "else" = false

/-- A token that ends a list of statements. -/
def Token.Ends (t : Token) : Prop := t.spells "\x7d" ∨ t.kind = .eof

/-- Add statements at the end of a list. -/
def ListSlot.addAll (list : ListSlot) (nodes : List Node) : ListSlot :=
  nodes.foldl (fun list node => list.add node) list

/-- What the reader does with the tokens of a phrase. -/
def Phrase.Read : Phrase → List Token → Prop
  | .expr level node, ts => ∀ (slot : ExprSlot) (next : Token) (rest : List Token),
      slot.Admits level → next.Follows level →
      (Phase.operand slot).feedAll (ts ++ next :: rest) =
        (Phase.operator node slot).feedAll (next :: rest)
  | .conditional node, ts => ∃ mark us, ts = mark :: us ∧ mark.spells "if" ∧
      ∀ (outer : IfSlot) (next : Token) (rest : List Token), next.spells "else" = false →
      (Phase.operand (.condition mark.line outer)).feedAll (us ++ next :: rest) =
        (Phase.operator (outer.fill node).1 (outer.fill node).2).feedAll (next :: rest)
  | .block node, ts => ∃ opening us, ts = opening :: us ∧ opening.spells "\x7b" ∧
      ∀ (slot : BlockSlot) (rest : List Token),
      (Phase.opening slot).feedAll (ts ++ rest) = (slot.fill node).feedAll rest
  | .statement node, ts => ∀ (list : ListSlot) (next : Token) (rest : List Token),
      next.Follows 0 →
      (Phase.statement list).feedAll (ts ++ next :: rest) =
        (Phase.statement (list.add node)).feedAll (next :: rest)
  | .statements nodes, ts => ∀ (list : ListSlot) (next : Token) (rest : List Token),
      next.Ends →
      (Phase.statement list).feedAll (ts ++ next :: rest) =
        (Phase.statement (list.addAll nodes)).feedAll (next :: rest)
  | .items nodes, ts => ∀ (bracket : Bracket) (before : List Node) (outer : ExprSlot)
      (closing : Token) (rest : List Token), closing.spells bracket.closing →
      (Phase.operandOrEnd (bracket.slot before outer)).feedAll (ts ++ closing :: rest) =
        (Phase.operator (bracket.node (before ++ nodes)) outer).feedAll rest
  | .entries pairs, ts => ∀ (line : Int) (before : List (Node × Node)) (outer : ExprSlot)
      (closing : Token) (rest : List Token), closing.spells "\x7d" →
      (Phase.operandOrEnd (.entryKey line before outer)).feedAll (ts ++ closing :: rest) =
        (Phase.operator (.hash line (before ++ pairs)) outer).feedAll rest
  | .parameters names, ts => ∀ (line : Int) (before : List Name) (outer : ExprSlot)
      (closing : Token) (rest : List Token), closing.spells ")" →
      (Phase.parameterOrEnd line before outer).feedAll (ts ++ closing :: rest) =
        (Phase.opening (.body line (before ++ names) outer)).feedAll rest

/-! ## Single tokens -/

/-- A mark follows what it does not bind more strongly than. -/
theorem Token.follows_of_spells {t : Token} {mark : String} {level : Nat} (spelled : t.spells mark)
    (weak : min (operatorLevel mark) 8 ≤ level) (other : mark ≠ "else") : t.Follows level := by
  refine ⟨?_, spells_eq_false spelled other⟩
  rw [level_of_spells spelled]
  exact weak

theorem Token.Ends.follows {t : Token} (ends : t.Ends) : t.Follows 0 := by
  rcases ends with spelled | kind
  · exact follows_of_spells spelled (by decide) (by decide)
  · exact ⟨by simp [level, kind], by simp [spells, kind]⟩

theorem Token.Follows.level_le {t : Token} {level : Nat} (follows : t.Follows level)
    (bounded : level < 8) : t.level ≤ level := by
  have bound := follows.1
  omega

namespace Phase

variable {t : Token}

/-- An operand is taken by the token behind it if that binds more strongly than what is in front. -/
theorem feed_operator_of_lt {slot : ExprSlot} (left : Node) (stronger : slot.level < t.level) :
    (Phase.operator left slot).feed t = .ok (slot.extend left t) := by
  simp only [feed]
  rw [ExprSlot.next.eq_def, if_pos stronger]

theorem feed_operator_unary {line : Int} {operator : String} {outer : ExprSlot} (left : Node)
    (weaker : t.level ≤ 7) :
    (Phase.operator left (.unary line operator outer)).feed t =
      (Phase.operator (.unary line operator left) outer).feed t := by
  have stays : ¬ (ExprSlot.unary line operator outer).level < t.level := Nat.not_lt.mpr weaker
  simp only [feed]
  rw [ExprSlot.next.eq_def, if_neg stays]

theorem feed_operator_binary {line : Int} {before : Node} {operator : String} {outer : ExprSlot}
    (left : Node) (weaker : t.level ≤ operatorLevel operator) :
    (Phase.operator left (.binary line before operator outer)).feed t =
      (Phase.operator (.joined line before operator left) outer).feed t := by
  have stays : ¬ (ExprSlot.binary line before operator outer).level < t.level :=
    Nat.not_lt.mpr weaker
  simp only [feed]
  rw [ExprSlot.next.eq_def, if_neg stays]

end Phase

theorem ExprSlot.Begins.feedAll_eq {slot : ExprSlot} {t : Token} {phase : Phase}
    (begins : slot.Begins t phase) (rest : List Token) :
    (Phase.operand slot).feedAll (t :: rest) = phase.feedAll rest :=
  Phase.feedAll_of_feed begins.begin_eq

/-- A list of expressions does not end where one of them starts. -/
theorem ExprSlot.end?_eq_none (slot : ExprSlot) {t : Token} (opens : t.Opens) :
    slot.end? t = none := by
  cases slot <;> simp [end?, opens.spells_eq_false (show ")" ∉ openers by decide),
    opens.spells_eq_false (show "]" ∉ openers by decide),
    opens.spells_eq_false (show "\x7d" ∉ openers by decide)]

/-! ## Expressions -/

namespace Phrase

variable {ts us vs : List Token} {node left right : Node} {level : Nat}

theorem read_weaker (ih : Read (.expr (level + 1) node) ts) : Read (.expr level node) ts := by
  intro slot next rest admits follows
  refine ih slot next rest ?_ ⟨Nat.le_succ_of_le follows.1, follows.2⟩
  unfold ExprSlot.Admits at admits ⊢
  omega

theorem read_binary {operator : String} {mark : Token} (member : operator ∈ binaryOperators level)
    (spelled : mark.spells operator) (ihLeft : Read (.expr level left) ts)
    (ihRight : Read (.expr (level + 1) right) us) :
    Read (.expr level (.joined mark.line left operator right)) (ts ++ mark :: us) := by
  intro slot next rest admits follows
  obtain ⟨same, positive, below⟩ := mem_binaryOperators_iff.mp member
  have markLevel : mark.level = level := by rw [Token.level_of_spells spelled, same]
  have markFollows : mark.Follows level := by
    refine Token.follows_of_spells spelled (by omega) ?_
    rintro rfl
    exact absurd positive (by simp [← same, operatorLevel])
  have taken : slot.level < mark.level := markLevel ▸ admits.level_lt (by omega)
  have inner : (ExprSlot.binary mark.line left operator slot).Admits (level + 1) := by
    left
    show operatorLevel operator < level + 1
    omega
  rw [List.append_assoc, List.cons_append, ihLeft slot mark _ admits markFollows]
  rw [Phase.feedAll_of_feed (Phase.feed_operator_of_lt left taken),
    ExprSlot.extend_binary member spelled]
  rw [ihRight _ next rest inner ⟨Nat.le_succ_of_le follows.1, follows.2⟩]
  refine Phase.feedAll_congr (Phase.feed_operator_binary right ?_)
  rw [same]
  exact follows.level_le (by omega)

theorem read_unary {operator : String} {mark : Token} (member : operator ∈ ["!", "-"])
    (spelled : mark.spells operator) (ih : Read (.expr 7 node) ts) :
    Read (.expr 7 (.unary mark.line operator node)) (mark :: ts) := by
  intro slot next rest _ follows
  rw [List.cons_append, ExprSlot.Begins.feedAll_eq (.unary member spelled)]
  rw [ih (.unary mark.line operator slot) next rest (.inr ⟨rfl, rfl⟩) follows]
  exact Phase.feedAll_congr (Phase.feed_operator_unary node (follows.level_le (by omega)))

theorem read_call {opening closing : Token} {callee : Node} {arguments : List Node}
    (opened : opening.spells "(") (closed : closing.spells ")")
    (ihCallee : Read (.expr 8 callee) ts) (ihArguments : Read (.items arguments) us) :
    Read (.expr 8 (.call opening.line callee arguments)) (ts ++ opening :: (us ++ [closing])) := by
  intro slot next rest admits _
  have openLevel : opening.level = 8 := Token.level_of_spells opened
  have taken : slot.level < opening.level := openLevel ▸ admits.level_lt (by omega)
  simp only [List.append_assoc, List.cons_append, List.nil_append]
  rw [ihCallee slot opening _ admits (Token.follows_of_spells opened (by decide) (by decide))]
  rw [Phase.feedAll_of_feed (Phase.feed_operator_of_lt callee taken), ExprSlot.extend_call opened]
  exact ihArguments (.arguments opening.line callee) [] slot closing (next :: rest) closed

theorem read_index {opening closing : Token} {subject position : Node}
    (opened : opening.spells "[") (closed : closing.spells "]")
    (ihSubject : Read (.expr 8 subject) ts) (ihPosition : Read (.expr 1 position) us) :
    Read (.expr 8 (.index opening.line subject position)) (ts ++ opening :: (us ++ [closing])) := by
  intro slot next rest admits _
  have openLevel : opening.level = 9 := Token.level_of_spells opened
  have taken : slot.level < opening.level := by
    have below := admits.level_lt (by omega)
    omega
  have closeLevel : closing.level = 0 := Token.level_of_spells closed
  simp only [List.append_assoc, List.cons_append, List.nil_append]
  rw [ihSubject slot opening _ admits (Token.follows_of_spells opened (by decide) (by decide))]
  rw [Phase.feedAll_of_feed (Phase.feed_operator_of_lt subject taken), ExprSlot.extend_index opened]
  rw [ihPosition _ closing (next :: rest) (ExprSlot.admits_one rfl)
    (Token.follows_of_spells closed (by decide) (by decide))]
  refine Phase.feedAll_of_feed ?_
  simp [Phase.feed, ExprSlot.next, ExprSlot.level, closeLevel, closed]

/-- An operand of a single token. -/
theorem read_operand {t : Token} (begins : ∀ slot : ExprSlot, slot.Begins t (.operator node slot)) :
    Read (.expr level node) [t] := by
  intro slot next rest _ _
  exact (begins slot).feedAll_eq (next :: rest)

theorem read_group {opening closing : Token} (opened : opening.spells "(")
    (closed : closing.spells ")") (ih : Read (.expr 1 node) ts) :
    Read (.expr 8 node) (opening :: (ts ++ [closing])) := by
  intro slot next rest _ _
  have closeLevel : closing.level = 0 := Token.level_of_spells closed
  simp only [List.append_assoc, List.cons_append, List.nil_append]
  rw [ExprSlot.Begins.feedAll_eq (.group opened)]
  rw [ih (.group slot) closing (next :: rest) (ExprSlot.admits_one rfl)
    (Token.follows_of_spells closed (by decide) (by decide))]
  refine Phase.feedAll_of_feed ?_
  simp [Phase.feed, ExprSlot.next, ExprSlot.level, closeLevel, closed]

theorem read_conditional (ih : Read (.conditional node) ts) : Read (.expr 8 node) ts := by
  intro slot next rest _ follows
  obtain ⟨mark, us, rfl, spelled, read⟩ := ih
  rw [List.cons_append, ExprSlot.Begins.feedAll_eq (.condition spelled)]
  exact read (.operand slot) next rest follows.2

theorem read_function {mark opening closing : Token} {names : List Name} {body : Node}
    (spelled : mark.spells "fn") (opened : opening.spells "(") (closed : closing.spells ")")
    (ihNames : Read (.parameters names) ts) (ihBody : Read (.block body) us) :
    Read (.expr 8 (.function mark.line names body)) (mark :: opening :: (ts ++ closing :: us)) := by
  intro slot next rest _ _
  obtain ⟨_, _, _, _, readBody⟩ := ihBody
  have parameters : (Phase.parameters mark.line slot).feed opening =
      .ok (.parameterOrEnd mark.line [] slot) := by
    simp [Phase.feed, opened]
  simp only [List.append_assoc, List.cons_append]
  rw [ExprSlot.Begins.feedAll_eq (.function spelled)]
  rw [Phase.feedAll_of_feed parameters]
  rw [ihNames mark.line [] slot closing _ closed]
  exact readBody (.body mark.line names slot) (next :: rest)

theorem read_array {opening closing : Token} {items : List Node} (opened : opening.spells "[")
    (closed : closing.spells "]") (ih : Read (.items items) ts) :
    Read (.expr 8 (.array opening.line items)) (opening :: (ts ++ [closing])) := by
  intro slot next rest _ _
  simp only [List.append_assoc, List.cons_append, List.nil_append]
  rw [ExprSlot.Begins.feedAll_eq (.array opened)]
  exact ih (.items opening.line) [] slot closing (next :: rest) closed

theorem read_hash {opening closing : Token} {pairs : List (Node × Node)}
    (opened : opening.spells "\x7b") (closed : closing.spells "\x7d")
    (ih : Read (.entries pairs) ts) :
    Read (.expr 8 (.hash opening.line pairs)) (opening :: (ts ++ [closing])) := by
  intro slot next rest _ _
  simp only [List.append_assoc, List.cons_append, List.nil_append]
  rw [ExprSlot.Begins.feedAll_eq (.hash opened)]
  exact ih opening.line [] slot closing (next :: rest) closed

/-! ## Conditionals and blocks -/

/-- The condition and the first block, which all forms of a conditional have in common. -/
theorem feedAll_condition {condition consequence : Node} (line : Int) (outer : IfSlot)
    (rest : List Token) (ihCondition : Read (.expr 1 condition) ts)
    (ihConsequence : Read (.block consequence) us) :
    (Phase.operand (.condition line outer)).feedAll (ts ++ (us ++ rest)) =
      (Phase.afterThen line condition consequence outer).feedAll rest := by
  obtain ⟨opening, vs, rfl, opened, read⟩ := ihConsequence
  have openLevel : opening.level = 0 := Token.level_of_spells opened
  have opens : (Phase.operator condition (.condition line outer)).feed opening =
      (Phase.opening (.thenBlock line condition outer)).feed opening := by
    simp [Phase.feed, ExprSlot.next, ExprSlot.level, openLevel]
  rw [List.cons_append, ihCondition (.condition line outer) opening _ (ExprSlot.admits_one rfl)
    (Token.follows_of_spells opened (by decide) (by decide))]
  rw [Phase.feedAll_congr opens, ← List.cons_append]
  exact read (.thenBlock line condition outer) rest

theorem read_ifThen {mark : Token} {condition consequence : Node} (spelled : mark.spells "if")
    (ihCondition : Read (.expr 1 condition) ts) (ihConsequence : Read (.block consequence) us) :
    Read (.conditional (.conditional mark.line condition consequence none))
      (mark :: (ts ++ us)) := by
  refine ⟨mark, _, rfl, spelled, ?_⟩
  intro outer next rest noElse
  rw [List.append_assoc, feedAll_condition mark.line outer _ ihCondition ihConsequence]
  refine Phase.feedAll_congr ?_
  simp [Phase.feed, noElse]

theorem read_ifElse {mark other : Token} {condition consequence alternative : Node}
    (spelled : mark.spells "if") (elseSpelled : other.spells "else")
    (ihCondition : Read (.expr 1 condition) ts) (ihConsequence : Read (.block consequence) us)
    (ihAlternative : Read (.block alternative) vs) :
    Read (.conditional (.conditional mark.line condition consequence (some alternative)))
      (mark :: (ts ++ (us ++ other :: vs))) := by
  refine ⟨mark, _, rfl, spelled, ?_⟩
  intro outer next rest _
  obtain ⟨opening, ws, rfl, opened, read⟩ := ihAlternative
  have passed : (Phase.afterThen mark.line condition consequence outer).feed other =
      .ok (.afterElse mark.line condition consequence other.line outer) := by
    simp [Phase.feed, elseSpelled]
  have opens : (Phase.afterElse mark.line condition consequence other.line outer).feed opening =
      (Phase.opening (.elseBlock mark.line condition consequence outer)).feed opening := by
    simp [Phase.feed, Token.spells_eq_false opened (show "\x7b" ≠ "if" by decide)]
  simp only [List.append_assoc, List.cons_append]
  rw [feedAll_condition mark.line outer _ ihCondition ihConsequence, Phase.feedAll_of_feed passed]
  rw [Phase.feedAll_congr opens, ← List.cons_append]
  exact read (.elseBlock mark.line condition consequence outer) (next :: rest)

theorem read_elseIf {mark other : Token} {condition consequence inner : Node}
    (spelled : mark.spells "if") (elseSpelled : other.spells "else")
    (ihCondition : Read (.expr 1 condition) ts) (ihConsequence : Read (.block consequence) us)
    (ihInner : Read (.conditional inner) vs) :
    Read (.conditional (.conditional mark.line condition consequence
      (some (.block other.line [.expression inner.line inner]))))
      (mark :: (ts ++ (us ++ other :: vs))) := by
  refine ⟨mark, _, rfl, spelled, ?_⟩
  intro outer next rest noElse
  obtain ⟨innerMark, ws, rfl, innerSpelled, read⟩ := ihInner
  have passed : (Phase.afterThen mark.line condition consequence outer).feed other =
      .ok (.afterElse mark.line condition consequence other.line outer) := by
    simp [Phase.feed, elseSpelled]
  have again : (Phase.afterElse mark.line condition consequence other.line outer).feed innerMark =
      .ok (.operand (.condition innerMark.line
        (.elseIf mark.line condition consequence other.line outer))) := by
    simp [Phase.feed, innerSpelled]
  simp only [List.append_assoc, List.cons_append]
  rw [feedAll_condition mark.line outer _ ihCondition ihConsequence, Phase.feedAll_of_feed passed]
  rw [Phase.feedAll_of_feed again]
  exact read (.elseIf mark.line condition consequence other.line outer) next rest noElse

theorem addAll_program (line : Int) (before nodes : List Node) :
    (ListSlot.program line before).addAll nodes = .program line (before ++ nodes) := by
  induction nodes generalizing before with
  | nil => simp [ListSlot.addAll]
  | cons node nodes ih =>
      have added := ih (before ++ [node])
      rw [List.append_assoc] at added
      exact added

theorem addAll_block (line : Int) (before nodes : List Node) (outer : BlockSlot) :
    (ListSlot.block line before outer).addAll nodes = .block line (before ++ nodes) outer := by
  induction nodes generalizing before with
  | nil => simp [ListSlot.addAll]
  | cons node nodes ih =>
      have added := ih (before ++ [node])
      rw [List.append_assoc] at added
      exact added

theorem read_block {opening closing : Token} {nodes : List Node} (opened : opening.spells "\x7b")
    (closed : closing.spells "\x7d") (ih : Read (.statements nodes) ts) :
    Read (.block (.block opening.line nodes)) (opening :: (ts ++ [closing])) := by
  refine ⟨opening, _, rfl, opened, ?_⟩
  intro slot rest
  have begun : (Phase.opening slot).feed opening = .ok (.statement (.block opening.line [] slot)) := by
    simp [Phase.feed, BlockSlot.begin, opened]
  simp only [List.append_assoc, List.cons_append, List.nil_append]
  rw [Phase.feedAll_of_feed begun, ih _ closing rest (.inl closed), addAll_block]
  refine Phase.feedAll_of_feed ?_
  simp [Phase.feed, ListSlot.next, closed,
    Token.spells_eq_false closed (show "\x7d" ≠ ";" by decide)]

/-! ## Statements -/

/-- What neither separates nor ends statements starts one. -/
theorem next_eq_beginStatement (list : ListSlot) {t : Token} (separator : t.spells ";" = false)
    (brace : t.spells "\x7d" = false) (more : t.kind ≠ .eof) :
    list.next t = list.beginStatement t := by
  cases list <;> simp [ListSlot.next, separator, brace, more]

/-- The expression at the end of a statement. -/
theorem feedAll_lastExpr {slot : ExprSlot} {list : ListSlot} {next : Token} {rest : List Token}
    (flat : slot.level = 0) (ih : Read (.expr 1 node) ts) (follows : next.Follows 0)
    (added : next.level = 0 →
      (Phase.operator node slot).feed next = (Phase.statement list).feed next) :
    (Phase.operand slot).feedAll (ts ++ next :: rest) =
      (Phase.statement list).feedAll (next :: rest) := by
  rw [ih slot next rest (ExprSlot.admits_one flat) ⟨Nat.le_succ_of_le follows.1, follows.2⟩]
  exact Phase.feedAll_congr (added (Nat.le_zero.mp (follows.level_le (by decide))))

theorem read_binding {mark name equals : Token} {value : Node} (spelled : mark.spells "let")
    (kind : name.kind = .name) (equal : equals.spells "=") (ih : Read (.expr 1 value) ts) :
    Read (.statement (.binding mark.line ⟨name.line, name.text⟩ value))
      (mark :: name :: equals :: ts) := by
  intro list next rest follows
  have begun : (Phase.statement list).feed mark = .ok (.bindingName mark.line list) := by
    rw [Phase.feed, next_eq_beginStatement list (Token.spells_eq_false spelled (by decide))
      (Token.spells_eq_false spelled (by decide)) (Token.kind_ne_eof_of_spells spelled)]
    simp [ListSlot.beginStatement, spelled]
  have named : (Phase.bindingName mark.line list).feed name =
      .ok (.bindingEquals mark.line ⟨name.line, name.text⟩ list) := by
    simp [Phase.feed, kind]
  have valued : (Phase.bindingEquals mark.line ⟨name.line, name.text⟩ list).feed equals =
      .ok (.operand (.binding mark.line ⟨name.line, name.text⟩ list)) := by
    simp [Phase.feed, equal]
  simp only [List.cons_append]
  rw [Phase.feedAll_of_feed begun, Phase.feedAll_of_feed named, Phase.feedAll_of_feed valued]
  refine feedAll_lastExpr rfl ih follows ?_
  intro flat
  simp [Phase.feed, ExprSlot.next, ExprSlot.level, flat]

/-- A `return` leads to a place for its value, or to the end of the statement. -/
theorem feed_return {mark : Token} (spelled : mark.spells "return") (list : ListSlot) :
    (Phase.statement list).feed mark = .ok (.resultOrEnd mark.line list) := by
  rw [Phase.feed, next_eq_beginStatement list (Token.spells_eq_false spelled (by decide))
    (Token.spells_eq_false spelled (by decide)) (Token.kind_ne_eof_of_spells spelled)]
  simp [ListSlot.beginStatement, spelled,
    Token.spells_eq_false spelled (show "return" ≠ "let" by decide)]

theorem read_result {mark : Token} {value : Node} (spelled : mark.spells "return")
    (value? : Spells (.expr 1 value) ts) (ih : Read (.expr 1 value) ts) :
    Read (.statement (.result mark.line (some value))) (mark :: ts) := by
  intro list next rest follows
  obtain ⟨first, more, rfl, opens⟩ := value?.opens trivial
  have valued : (Phase.resultOrEnd mark.line list).feed first =
      (Phase.operand (.result mark.line list)).feed first := by
    simp [Phase.feed, opens.spells_eq_false (show ";" ∉ openers by decide),
      opens.spells_eq_false (show "\x7d" ∉ openers by decide), opens.kind_ne_eof]
  rw [List.cons_append, Phase.feedAll_of_feed (feed_return spelled list)]
  rw [List.cons_append, Phase.feedAll_congr valued, ← List.cons_append]
  refine feedAll_lastExpr rfl ih follows ?_
  intro flat
  simp [Phase.feed, ExprSlot.next, ExprSlot.level, flat]

theorem read_expression {first : Token} {inner : Node} (spells : Spells (.expr 1 inner) (first :: ts))
    (ih : Read (.expr 1 inner) (first :: ts)) :
    Read (.statement (.expression first.line inner)) (first :: ts) := by
  intro list next rest follows
  obtain ⟨_, _, same, opens⟩ := spells.opens trivial
  cases same
  have begun : (Phase.statement list).feed first =
      (Phase.operand (.statement first.line list)).feed first := by
    rw [Phase.feed, next_eq_beginStatement list (opens.spells_eq_false (by decide))
      (opens.spells_eq_false (by decide)) opens.kind_ne_eof]
    simp [Phase.feed, ListSlot.beginStatement, opens.spells_eq_false (show "let" ∉ openers by decide),
      opens.spells_eq_false (show "return" ∉ openers by decide)]
  rw [List.cons_append, Phase.feedAll_congr begun, ← List.cons_append]
  refine feedAll_lastExpr rfl ih follows ?_
  intro flat
  simp [Phase.feed, ExprSlot.next, ExprSlot.level, flat]

theorem read_semicolon {mark : Token} {nodes : List Node} (spelled : mark.spells ";")
    (ih : Read (.statements nodes) ts) : Read (.statements nodes) (mark :: ts) := by
  intro list next rest ends
  have passed : (Phase.statement list).feed mark = .ok (.statement list) := by
    simp [Phase.feed, ListSlot.next, spelled]
  rw [List.cons_append, Phase.feedAll_of_feed passed]
  exact ih list next rest ends

/-- What stands behind a statement may follow it: the next statement, or the end of the list. -/
theorem exists_next {nodes : List Node} {next : Token} (rest : List Token)
    (spells : Spells (.statements nodes) us) (maximal : ∀ t ∈ us.head?, ¬ t.Extends)
    (ends : next.Ends) : ∃ t more, us ++ next :: rest = t :: more ∧ t.Follows 0 := by
  cases us with
  | nil => exact ⟨next, rest, rfl, ends.follows⟩
  | cons t more =>
      refine ⟨t, _, rfl, ?_, spells.head_spells_eq_false (by decide) t rfl⟩
      rw [Token.level_eq_zero_iff.mpr (maximal t rfl)]
      decide

theorem read_statement {nodes : List Node} (spells : Spells (.statements nodes) us)
    (maximal : ∀ t ∈ us.head?, ¬ t.Extends) (ih : Read (.statement node) ts)
    (ihRest : Read (.statements nodes) us) : Read (.statements (node :: nodes)) (ts ++ us) := by
  intro list next rest ends
  obtain ⟨t, more, same, follows⟩ := exists_next rest spells maximal ends
  rw [List.append_assoc, same, ih list t more follows, ← same]
  exact ihRest (list.add node) next rest ends

theorem read_bareResult {mark : Token} {nodes : List Node} (spelled : mark.spells "return")
    (bare : ∀ t ∈ ts.head?, t.spells ";") (ih : Read (.statements nodes) ts) :
    Read (.statements (.result mark.line none :: nodes)) (mark :: ts) := by
  intro list next rest ends
  obtain ⟨t, more, same, ended⟩ : ∃ t more, ts ++ next :: rest = t :: more ∧
      (t.spells ";" || t.spells "\x7d" || t.kind == .eof) = true := by
    cases ts with
    | nil => exact ⟨next, rest, rfl, by rcases ends with closed | kind <;> simp [*]⟩
    | cons t more => exact ⟨t, _, rfl, by simp [bare t rfl]⟩
  have added : (Phase.resultOrEnd mark.line list).feed t =
      (Phase.statement (list.add (.result mark.line none))).feed t := by
    simp only [Phase.feed]
    rw [if_pos ended]
  rw [List.cons_append, Phase.feedAll_of_feed (feed_return spelled list)]
  rw [same, Phase.feedAll_congr added, ← same]
  exact ih _ next rest ends

/-! ## Lists -/

/-- Where a list may go on or end, an expression goes on with it. -/
theorem feedAll_operandOrEnd {slot : ExprSlot} (spells : Spells (.expr 1 node) ts)
    (rest : List Token) :
    (Phase.operandOrEnd slot).feedAll (ts ++ rest) = (Phase.operand slot).feedAll (ts ++ rest) := by
  obtain ⟨first, more, rfl, opens⟩ := spells.opens trivial
  refine Phase.feedAll_congr ?_
  simp [Phase.feed, slot.end?_eq_none opens]

theorem read_noItems : Read (.items []) [] := by
  intro bracket before outer closing rest closed
  refine Phase.feedAll_of_feed ?_
  simp [Phase.feed, Bracket.end?_slot, closed]

/-- The closing mark of a bracket is no operator. -/
theorem level_closing {bracket : Bracket} {closing : Token}
    (closed : closing.spells bracket.closing) : closing.level = 0 ∧ closing.Follows 1 := by
  rcases bracket.closing_cases with same | same <;> rw [same] at closed
  · exact ⟨Token.level_of_spells closed, Token.follows_of_spells closed (by decide) (by decide)⟩
  · exact ⟨Token.level_of_spells closed, Token.follows_of_spells closed (by decide) (by decide)⟩

theorem read_lastItem (spells : Spells (.expr 1 node) ts) (ih : Read (.expr 1 node) ts) :
    Read (.items [node]) ts := by
  intro bracket before outer closing rest closed
  obtain ⟨flat, follows⟩ := level_closing closed
  rw [feedAll_operandOrEnd spells,
    ih _ closing rest (ExprSlot.admits_one (bracket.level_slot before outer)) follows]
  refine Phase.feedAll_of_feed ?_
  simp [Phase.feed, bracket.next_slot before outer flat, closed]

theorem read_item {comma : Token} {nodes : List Node} (spelled : comma.spells ",")
    (spells : Spells (.expr 1 node) ts) (ih : Read (.expr 1 node) ts)
    (ihRest : Read (.items nodes) us) : Read (.items (node :: nodes)) (ts ++ comma :: us) := by
  intro bracket before outer closing rest closed
  have flat : comma.level = 0 := Token.level_of_spells spelled
  have goesOn : comma.spells bracket.closing = false := by
    rcases bracket.closing_cases with same | same <;> rw [same] <;>
      exact Token.spells_eq_false spelled (by decide)
  have passed : (Phase.operator node (bracket.slot before outer)).feed comma =
      .ok (.operandOrEnd (bracket.slot (before ++ [node]) outer)) := by
    simp [Phase.feed, bracket.next_slot before outer flat, goesOn, spelled]
  simp only [List.append_assoc, List.cons_append]
  rw [feedAll_operandOrEnd spells,
    ih _ comma _ (ExprSlot.admits_one (bracket.level_slot before outer))
      (Token.follows_of_spells spelled (by decide) (by decide))]
  rw [Phase.feedAll_of_feed passed, ihRest bracket (before ++ [node]) outer closing rest closed]
  simp

theorem read_noEntries : Read (.entries []) [] := by
  intro line before outer closing rest closed
  refine Phase.feedAll_of_feed ?_
  simp [Phase.feed, ExprSlot.end?, closed]

/-- A key, the colon behind it and the value. -/
theorem feedAll_entry {colon next : Token} {key value : Node} (line : Int)
    (before : List (Node × Node)) (outer : ExprSlot) (rest : List Token)
    (spelled : colon.spells ":") (spells : Spells (.expr 1 key) ts) (ihKey : Read (.expr 1 key) ts)
    (ihValue : Read (.expr 1 value) us) (follows : next.Follows 1) :
    (Phase.operandOrEnd (.entryKey line before outer)).feedAll (ts ++ colon :: (us ++ next :: rest)) =
      (Phase.operator value (.entryValue line before key outer)).feedAll (next :: rest) := by
  have flat : colon.level = 0 := Token.level_of_spells spelled
  have passed : (Phase.operator key (.entryKey line before outer)).feed colon =
      .ok (.operand (.entryValue line before key outer)) := by
    simp [Phase.feed, ExprSlot.next, ExprSlot.level, flat, spelled]
  rw [feedAll_operandOrEnd spells, ihKey _ colon _ (ExprSlot.admits_one rfl)
    (Token.follows_of_spells spelled (by decide) (by decide))]
  rw [Phase.feedAll_of_feed passed]
  exact ihValue _ next rest (ExprSlot.admits_one rfl) follows

theorem read_lastEntry {colon : Token} {key value : Node} (spelled : colon.spells ":")
    (spells : Spells (.expr 1 key) ts) (ihKey : Read (.expr 1 key) ts)
    (ihValue : Read (.expr 1 value) us) : Read (.entries [(key, value)]) (ts ++ colon :: us) := by
  intro line before outer closing rest closed
  have flat : closing.level = 0 := Token.level_of_spells closed
  rw [List.append_assoc, List.cons_append,
    feedAll_entry line before outer rest spelled spells ihKey ihValue
      (Token.follows_of_spells closed (by decide) (by decide))]
  refine Phase.feedAll_of_feed ?_
  simp [Phase.feed, ExprSlot.next, ExprSlot.level, flat, closed]

theorem read_entry {colon comma : Token} {key value : Node} {pairs : List (Node × Node)}
    (spelled : colon.spells ":") (separated : comma.spells ",") (spells : Spells (.expr 1 key) ts)
    (ihKey : Read (.expr 1 key) ts) (ihValue : Read (.expr 1 value) us)
    (ihRest : Read (.entries pairs) vs) :
    Read (.entries ((key, value) :: pairs)) (ts ++ colon :: (us ++ comma :: vs)) := by
  intro line before outer closing rest closed
  have flat : comma.level = 0 := Token.level_of_spells separated
  have passed : (Phase.operator value (.entryValue line before key outer)).feed comma =
      .ok (.operandOrEnd (.entryKey line (before ++ [(key, value)]) outer)) := by
    simp [Phase.feed, ExprSlot.next, ExprSlot.level, flat, separated,
      Token.spells_eq_false separated (show "," ≠ "\x7d" by decide)]
  simp only [List.append_assoc, List.cons_append]
  rw [feedAll_entry line before outer _ spelled spells ihKey ihValue
    (Token.follows_of_spells separated (by decide) (by decide))]
  rw [Phase.feedAll_of_feed passed, ihRest line _ outer closing rest closed]
  simp

theorem read_noParameters : Read (.parameters []) [] := by
  intro line before outer closing rest closed
  refine Phase.feedAll_of_feed ?_
  simp [Phase.feed, closed]

/-- A name is added to the parameters in front of it. -/
theorem feed_parameter {name : Token} (kind : name.kind = .name) (line : Int) (before : List Name)
    (outer : ExprSlot) :
    (Phase.parameterOrEnd line before outer).feed name =
      .ok (.parameterEnd line (before ++ [⟨name.line, name.text⟩]) outer) := by
  simp [Phase.feed, kind, Token.spells]

theorem read_lastParameter {name : Token} (kind : name.kind = .name) :
    Read (.parameters [⟨name.line, name.text⟩]) [name] := by
  intro line before outer closing rest closed
  rw [List.cons_append, Phase.feedAll_of_feed (feed_parameter kind line before outer)]
  refine Phase.feedAll_of_feed ?_
  simp [Phase.feed, closed]

theorem read_parameter {name comma : Token} {names : List Name} (kind : name.kind = .name)
    (separated : comma.spells ",") (ih : Read (.parameters names) ts) :
    Read (.parameters (⟨name.line, name.text⟩ :: names)) (name :: comma :: ts) := by
  intro line before outer closing rest closed
  have passed : (Phase.parameterEnd line (before ++ [⟨name.line, name.text⟩]) outer).feed comma =
      .ok (.parameterOrEnd line (before ++ [⟨name.line, name.text⟩]) outer) := by
    simp [Phase.feed, separated, Token.spells_eq_false separated (show "," ≠ ")" by decide)]
  rw [List.cons_append, Phase.feedAll_of_feed (feed_parameter kind line before outer)]
  rw [List.cons_append, Phase.feedAll_of_feed passed, ih line _ outer closing rest closed]
  simp

end Phrase

/-! ## Derivations -/

/-- The reader reads every row of tokens that the grammar derives. -/
theorem Spells.read {phrase : Phrase} {ts : List Token} (spells : Spells phrase ts) :
    phrase.Read ts := by
  induction spells with
  | noStatements => exact fun _ _ _ _ => rfl
  | semicolon mark _ ih => exact Phrase.read_semicolon mark ih
  | statement _ maximal more ih ihRest => exact Phrase.read_statement more maximal ih ihRest
  | bareResult mark bare _ ih => exact Phrase.read_bareResult mark bare ih
  | binding mark kind equal _ ih => exact Phrase.read_binding mark kind equal ih
  | result mark value ih => exact Phrase.read_result mark value ih
  | expression inner ih => exact Phrase.read_expression inner ih
  | weaker _ ih => exact Phrase.read_weaker ih
  | binary member _ mark _ ihLeft ihRight => exact Phrase.read_binary member mark ihLeft ihRight
  | unary member mark _ ih => exact Phrase.read_unary member mark ih
  | call _ opened _ closed ihCallee ih => exact Phrase.read_call opened closed ihCallee ih
  | index _ opened _ closed ihSubject ih => exact Phrase.read_index opened closed ihSubject ih
  | number kind value => exact Phrase.read_operand fun _ => .number kind value
  | text kind => exact Phrase.read_operand fun _ => .text kind
  | identifier kind => exact Phrase.read_operand fun _ => .identifier kind
  | yes mark => exact Phrase.read_operand fun _ => .yes mark
  | no mark => exact Phrase.read_operand fun _ => .no mark
  | group opened _ closed ih => exact Phrase.read_group opened closed ih
  | conditional _ ih => exact Phrase.read_conditional ih
  | function mark opened _ closed _ ihNames ih =>
      exact Phrase.read_function mark opened closed ihNames ih
  | array opened _ closed ih => exact Phrase.read_array opened closed ih
  | hash opened _ closed ih => exact Phrase.read_hash opened closed ih
  | ifThen mark _ _ ihCondition ih => exact Phrase.read_ifThen mark ihCondition ih
  | ifElse mark _ _ other _ ihCondition ihConsequence ih =>
      exact Phrase.read_ifElse mark other ihCondition ihConsequence ih
  | elseIf mark _ _ other _ ihCondition ihConsequence ih =>
      exact Phrase.read_elseIf mark other ihCondition ihConsequence ih
  | block opened _ closed ih => exact Phrase.read_block opened closed ih
  | noItems => exact Phrase.read_noItems
  | lastItem item ih => exact Phrase.read_lastItem item ih
  | item item comma _ ih ihRest => exact Phrase.read_item comma item ih ihRest
  | noEntries => exact Phrase.read_noEntries
  | lastEntry key colon _ ihKey ih => exact Phrase.read_lastEntry colon key ihKey ih
  | entry key colon _ comma _ ihKey ih ihRest =>
      exact Phrase.read_entry colon comma key ihKey ih ihRest
  | noParameters => exact Phrase.read_noParameters
  | lastParameter kind => exact Phrase.read_lastParameter kind
  | parameter kind comma _ ih => exact Phrase.read_parameter kind comma ih

/-- The reader accepts every program of the grammar, with the tree that the grammar gives it. -/
theorem feedAll_of_spellsProgram {line : Int} {tokens : List Token} {program : Node}
    (spells : SpellsProgram line tokens program) :
    Phase.start.feedAll (tokens ++ [.eof line]) = .ok (.done program) := by
  obtain ⟨nodes, rfl, spelled⟩ := spells
  have started (t : Token) (rest : List Token) : Phase.start.feedAll (t :: rest) =
      (Phase.statement (.program t.line [])).feedAll (t :: rest) := Phase.feedAll_congr rfl
  have read := spelled.read (.program ((tokens.head?.map Token.line).getD line) []) (.eof line) []
    (.inr rfl)
  rw [Phrase.addAll_program] at read
  cases tokens with
  | nil =>
      rw [List.nil_append, started]
      exact read
  | cons first more =>
      rw [List.cons_append, started]
      exact read

end Treewalk

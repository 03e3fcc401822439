import Treewalk.Proofs.Reader.Steps

/-!
# The reader reads nothing else

A phase holds what has been read and leaves open what must follow. `Phase.Demands` says what that is,
in terms of the grammar: the rest of the input must be such that, together with what has been read, it
spells the program. `Phase.demands_of_feed` shows that a step of the reader leads to a phase that
demands no less of the tokens behind it, so a row of tokens that is read to its end fulfils what the
start demands, which is to spell a program.

What a place demands is told from the inside out, as a slot is: `ExprSlot.Closes` says what must
follow the expression in it, and refers to what must follow the larger piece that it completes.
-/

namespace Treewalk

/-! ## Demands -/

/-- The first token of a row, if there is one, binds no more strongly than a level. -/
def Weak (level : Nat) (row : List Token) : Prop := ∀ t ∈ row.head?, t.level ≤ level

/-- A row that starts with a mark. -/
def Marked (mark : String) (after : List Token → Prop) (input : List Token) : Prop :=
  ∃ t rest, input = t :: rest ∧ t.spells mark ∧ after rest

/-- A row that starts with tokens of one sort and goes on with another. -/
def Parted (first after : List Token → Prop) (input : List Token) : Prop :=
  ∃ ts rest, input = ts ++ rest ∧ first ts ∧ after rest

/-- What must follow the operand `left` in a place: tokens that make of it an expression which the
place admits, and then what must follow that. Before the tokens `left` may be of any level, as long as
it does not have to give up a part of itself to the next token. -/
def ExprSlot.Tail (slot : ExprSlot) (closes : Node → List Token → Prop) (left : Node)
    (input : List Token) : Prop :=
  slot.level < 8 → ∃ node, Parted
    (fun ts => ∀ level ls, slot.Admits level → (∀ t ∈ input.head?, min t.level 8 ≤ level) →
      Spells (.expr level left) ls → ∃ level, slot.Admits level ∧ Spells (.expr level node) (ls ++ ts))
    (fun rest => Weak slot.level rest ∧ closes node rest) input

/-- What must follow the first block of a conditional. -/
def AfterThen (line : Int) (condition consequence : Node) (closes : Node → List Token → Prop)
    (input : List Token) : Prop :=
  ∃ node, Parted
    (fun ts => ∀ mark cs bs, mark.spells "if" → mark.line = line → Spells (.expr 1 condition) cs →
      Spells (.block consequence) bs → Spells (.conditional node) (mark :: (cs ++ (bs ++ ts))))
    (closes node) input

mutual

/-- What must follow an expression. -/
def ExprSlot.Closes (program : Node) : ExprSlot → Node → List Token → Prop
  | .statement line list, node, input =>
    ∃ nodes, Parted (Spells (.statements nodes)) (list.Ends program (.expression line node :: nodes))
      input
  | .binding line name list, node, input =>
    ∃ nodes, Parted (Spells (.statements nodes)) (list.Ends program (.binding line name node :: nodes))
      input
  | .result line list, node, input =>
    ∃ nodes, Parted (Spells (.statements nodes))
      (list.Ends program (.result line (some node) :: nodes)) input
  | .unary line operator outer, node, input =>
    outer.Tail (outer.Closes program) (.unary line operator node) input
  | .binary line left operator outer, node, input =>
    outer.Tail (outer.Closes program) (.joined line left operator node) input
  | .group outer, node, input => Marked ")" (outer.Tail (outer.Closes program) node) input
  | .argument line callee before outer, node, input =>
    ∃ nodes, Parted
      (fun ts => ∀ ls, Spells (.expr 1 node) ls → Spells (.items (node :: nodes)) (ls ++ ts))
      (Marked ")" (outer.Tail (outer.Closes program) (.call line callee (before ++ node :: nodes))))
      input
  | .item line before outer, node, input =>
    ∃ nodes, Parted
      (fun ts => ∀ ls, Spells (.expr 1 node) ls → Spells (.items (node :: nodes)) (ls ++ ts))
      (Marked "]" (outer.Tail (outer.Closes program) (.array line (before ++ node :: nodes)))) input
  | .entryKey line before outer, node, input =>
    ∃ pairs, Parted (fun ts => ∀ ls, Spells (.expr 1 node) ls → Spells (.entries pairs) (ls ++ ts))
      (Marked "\x7d" (outer.Tail (outer.Closes program) (.hash line (before ++ pairs)))) input
  | .entryValue line before key outer, node, input =>
    ∃ pairs, Parted
      (fun ts => ∀ ks colon ls, Spells (.expr 1 key) ks → colon.spells ":" → Spells (.expr 1 node) ls →
        Spells (.entries pairs) (ks ++ colon :: (ls ++ ts)))
      (Marked "\x7d" (outer.Tail (outer.Closes program) (.hash line (before ++ pairs)))) input
  | .position line subject outer, node, input =>
    Marked "]" (outer.Tail (outer.Closes program) (.index line subject node)) input
  | .condition line outer, node, input =>
    ∃ block, Parted (Spells (.block block)) (AfterThen line node block (outer.Closes program)) input

/-- What must follow a conditional. -/
def IfSlot.Closes (program : Node) : IfSlot → Node → List Token → Prop
  | .operand outer, node, input => outer.Tail (outer.Closes program) node input
  | .elseIf line condition consequence elseLine outer, node, input =>
    outer.Closes program (.conditional line condition consequence
      (some (.block elseLine [.expression node.line node]))) input

/-- What must follow a block. -/
def BlockSlot.Closes (program : Node) : BlockSlot → Node → List Token → Prop
  | .thenBlock line condition outer, node, input =>
    AfterThen line condition node (outer.Closes program) input
  | .elseBlock line condition consequence outer, node, input =>
    outer.Closes program (.conditional line condition consequence (some node)) input
  | .body line parameters outer, node, input =>
    outer.Tail (outer.Closes program) (.function line parameters node) input

/-- What must follow the last statement of a list, given those that were added to it. -/
def ListSlot.Ends (program : Node) : ListSlot → List Node → List Token → Prop
  | .program line before, nodes, input =>
    ∃ t rest, input = t :: rest ∧ t.kind = .eof ∧ program = .program line (before ++ nodes)
  | .block line before outer, nodes, input =>
    Marked "\x7d" (outer.Closes program (.block line (before ++ nodes))) input

end

/-- What must follow in a list of statements. -/
def ListSlot.GoesOn (program : Node) (list : ListSlot) (input : List Token) : Prop :=
  ∃ nodes, Parted (Spells (.statements nodes)) (list.Ends program nodes) input

/-- What must stand in a place and behind it. -/
def ExprSlot.Takes (program : Node) (slot : ExprSlot) (input : List Token) : Prop :=
  slot.level < 8 → ∃ level node, slot.Admits level ∧ Parted (Spells (.expr level node))
    (fun rest => Weak slot.level rest ∧ slot.Closes program node rest) input

/-- What must stand in a place that may stay empty, and behind it. -/
def ExprSlot.TakesOrEnds (program : Node) : ExprSlot → List Token → Prop
  | .argument line callee before outer, input =>
    ∃ nodes, Parted (Spells (.items nodes))
      (Marked ")" (outer.Tail (outer.Closes program) (.call line callee (before ++ nodes)))) input
  | .item line before outer, input =>
    ∃ nodes, Parted (Spells (.items nodes))
      (Marked "]" (outer.Tail (outer.Closes program) (.array line (before ++ nodes)))) input
  | .entryKey line before outer, input =>
    ∃ pairs, Parted (Spells (.entries pairs))
      (Marked "\x7d" (outer.Tail (outer.Closes program) (.hash line (before ++ pairs)))) input
  | slot, input => slot.Takes program input

/-- What must follow the parameters of a function that are read, where `more` tells how further ones
are spelled. -/
def ParametersEnd (program : Node) (line : Int) (before : List Name) (outer : ExprSlot)
    (more : List Name → List Token → Prop) (input : List Token) : Prop :=
  ∃ names body, Parted (more names) (Marked ")" (Parted (Spells (.block body))
    (outer.Tail (outer.Closes program) (.function line (before ++ names) body)))) input

/-- What must follow for the program to be read. -/
def Phase.Demands (program : Node) : Phase → List Token → Prop
  | .start, input => ∃ t rest, input = t :: rest ∧ (ListSlot.program t.line []).GoesOn program input
  | .statement list, input => list.GoesOn program input
  | .operand slot, input => slot.Takes program input
  | .operandOrEnd slot, input => slot.TakesOrEnds program input
  | .operator left slot, input => slot.Tail (slot.Closes program) left input
  | .bindingName line list, input => ∃ t rest, input = t :: rest ∧ t.kind = .name ∧
      Marked "=" ((ExprSlot.binding line ⟨t.line, t.text⟩ list).Takes program) rest
  | .bindingEquals line name list, input =>
    Marked "=" ((ExprSlot.binding line name list).Takes program) input
  | .resultOrEnd line list, input =>
    (∃ nodes, Parted
      (fun ts => (∀ t ∈ ts.head?, t.spells ";") ∧ Spells (.statements nodes) ts)
      (list.Ends program (.result line none :: nodes)) input) ∨
    (ExprSlot.result line list).Takes program input
  | .parameters line outer, input =>
    Marked "(" (ParametersEnd program line [] outer fun names => Spells (.parameters names)) input
  | .parameterOrEnd line before outer, input =>
    ParametersEnd program line before outer (fun names => Spells (.parameters names)) input
  | .parameterEnd line before outer, input =>
    ParametersEnd program line before outer
      (fun names ts => ∀ name : Token, name.kind = .name →
        Spells (.parameters (⟨name.line, name.text⟩ :: names)) (name :: ts)) input
  | .opening slot, input => ∃ block, Parted (Spells (.block block)) (slot.Closes program block) input
  | .afterThen line condition consequence outer, input =>
    AfterThen line condition consequence (outer.Closes program) input
  | .afterElse line condition consequence elseLine outer, input =>
    ∃ alternative, Parted
      (fun ts => Spells (.block alternative) ts ∨ ∃ inner,
        alternative = .block elseLine [.expression inner.line inner] ∧ Spells (.conditional inner) ts)
      (outer.Closes program (.conditional line condition consequence (some alternative))) input
  | .done read, _ => read = program

/-! ## Pieces put in their places -/

variable {program : Node}

theorem Spells.weaken {high low : Nat} {node : Node} {ts : List Token} (le : low ≤ high)
    (spells : Spells (.expr high node) ts) : Spells (.expr low node) ts := by
  induction le with
  | refl => exact spells
  | step _ ih => exact ih (.weaker spells)

theorem ExprSlot.Admits.pos {slot : ExprSlot} {level : Nat} (admits : slot.Admits level) :
    1 ≤ level := by
  unfold Admits at admits
  omega

/-- An operand that nothing extends is in its place. -/
theorem ExprSlot.tail_of_closes {slot : ExprSlot} {closes : Node → List Token → Prop} {left : Node}
    {input : List Token} (weak : Weak slot.level input) (closed : closes left input) :
    slot.Tail closes left input := by
  intro _
  refine ⟨left, [], input, rfl, ?_, weak, closed⟩
  intro level ls admits _ spells
  rw [List.append_nil]
  exact ⟨level, admits, spells⟩

/-- An operand and what must follow it are what must stand in the place. -/
theorem ExprSlot.takes_of_tail {slot : ExprSlot} {level : Nat} {left : Node} {ls input : List Token}
    (admits : slot.level < 8 → slot.Admits level) (weak : ∀ t ∈ input.head?, min t.level 8 ≤ level)
    (spells : Spells (.expr level left) ls) (tail : slot.Tail (slot.Closes program) left input) :
    slot.Takes program (ls ++ input) := by
  intro bounded
  obtain ⟨node, ts, rest, rfl, grows, after⟩ := tail bounded
  obtain ⟨high, admitted, spelled⟩ := grows level ls (admits bounded) weak spells
  exact ⟨high, node, admitted, ls ++ ts, rest, by simp, spelled, after⟩

/-- An operand of the highest level fits every place. -/
theorem ExprSlot.takes_of_operand {slot : ExprSlot} {left : Node} {ls input : List Token}
    (spells : Spells (.expr 8 left) ls) (tail : slot.Tail (slot.Closes program) left input) :
    slot.Takes program (ls ++ input) :=
  takes_of_tail .inl (fun _ _ => Nat.min_le_right ..) spells tail

/-- What must follow a conditional must follow the operand that it completes. -/
theorem IfSlot.closes_iff (outer : IfSlot) (node : Node) (input : List Token) :
    outer.Closes program node input ↔
      (outer.fill node).2.Tail ((outer.fill node).2.Closes program) (outer.fill node).1 input := by
  match outer with
  | .operand slot => exact Iff.rfl
  | .elseIf line condition consequence elseLine outer => exact closes_iff outer _ input

theorem BlockSlot.closes_of_demands {slot : BlockSlot} {node : Node} {input : List Token}
    (demands : (slot.fill node).Demands program input) : slot.Closes program node input := by
  cases slot with
  | thenBlock line condition outer => exact demands
  | elseBlock line condition consequence outer => exact (outer.closes_iff _ input).mpr demands
  | body line parameters outer => exact demands

theorem ListSlot.ends_add {list : ListSlot} {node : Node} {nodes : List Node} {input : List Token}
    (ends : (list.add node).Ends program nodes input) : list.Ends program (node :: nodes) input := by
  cases list with
  | program line before => simpa only [add, Ends, List.append_assoc, List.singleton_append] using ends
  | block line before outer =>
      simpa only [add, Ends, List.append_assoc, List.singleton_append] using ends

theorem Bracket.closes_slot {bracket : Bracket} {before : List Node} {outer : ExprSlot} {node : Node}
    {input : List Token} : (bracket.slot before outer).Closes program node input ↔
      ∃ nodes, Parted
        (fun ts => ∀ ls, Spells (.expr 1 node) ls → Spells (.items (node :: nodes)) (ls ++ ts))
        (Marked bracket.closing
          (outer.Tail (outer.Closes program) (bracket.node (before ++ node :: nodes)))) input := by
  cases bracket <;> exact Iff.rfl

theorem Bracket.takesOrEnds_slot {bracket : Bracket} {before : List Node} {outer : ExprSlot}
    {input : List Token} : (bracket.slot before outer).TakesOrEnds program input ↔
      ∃ nodes, Parted (Spells (.items nodes))
        (Marked bracket.closing (outer.Tail (outer.Closes program) (bracket.node (before ++ nodes))))
        input := by
  cases bracket <;> exact Iff.rfl

/-! ## Steps -/

/-- What a place takes, where no operator stands in front. -/
theorem ExprSlot.Takes.expr {slot : ExprSlot} {input : List Token}
    (takes : slot.Takes program input) (flat : slot.level = 0) : ∃ node, Parted (Spells (.expr 1 node))
      (fun rest => Weak 0 rest ∧ slot.Closes program node rest) input := by
  obtain ⟨level, node, admits, ts, rest, rfl, spelled, weak, closes⟩ := takes (by omega)
  exact ⟨node, ts, rest, rfl, spelled.weaken admits.pos, flat ▸ weak, closes⟩

/-- The start of an expression. -/
theorem ExprSlot.takes_of_begins {slot : ExprSlot} {t : Token} {phase : Phase} {input : List Token}
    (begins : slot.Begins t phase) (demands : phase.Demands program input) :
    slot.Takes program (t :: input) := by
  have single {node : Node} (spells : Spells (.expr 8 node) [t])
      (tail : slot.Tail (slot.Closes program) node input) : slot.Takes program (t :: input) :=
    takes_of_operand spells tail
  cases begins with
  | number kind value => exact single (.number kind value) demands
  | text kind => exact single (.text kind) demands
  | identifier kind => exact single (.identifier kind) demands
  | yes spelled => exact single (.yes spelled) demands
  | no spelled => exact single (.no spelled) demands
  | unary member spelled =>
      -- The operand may be a prefix expression itself, which is why it need not be stronger than one.
      obtain ⟨level, node, admits, ts, rest, rfl, inner, weak, closes⟩ :=
        demands (show 7 < 8 by decide)
      have strong : 7 ≤ level := by
        rcases admits with above | ⟨-, same⟩
        · exact Nat.le_of_lt above
        · omega
      rw [← List.cons_append]
      refine takes_of_tail ?_ ?_ (.unary member spelled (inner.weaken strong)) closes
      · intro bounded
        unfold Admits
        omega
      · intro next first
        have bound : next.level ≤ 7 := weak next first
        omega
  | group spelled =>
      obtain ⟨node, ts, rest, rfl, inner, -, closes⟩ := Takes.expr demands rfl
      obtain ⟨closing, rest, rfl, closed, tail⟩ := closes
      simpa using takes_of_operand (.group spelled inner closed) tail
  | condition spelled =>
      obtain ⟨condition, cs, rest, rfl, inner, -, closes⟩ := Takes.expr demands rfl
      obtain ⟨block, bs, rest, rfl, blockSpelled, node, ts, rest, rfl, completes, tail⟩ := closes
      have conditional := completes t cs bs spelled rfl inner blockSpelled
      simpa using takes_of_operand (.conditional conditional) tail
  | function spelled =>
      obtain ⟨opening, rest, rfl, opened, names, body, ts, rest, rfl, namesSpelled, after⟩ := demands
      obtain ⟨closing, rest, rfl, closed, us, rest, rfl, bodySpelled, tail⟩ := after
      simpa using takes_of_operand (.function spelled opened namesSpelled closed bodySpelled) tail
  | array spelled =>
      obtain ⟨nodes, ts, rest, rfl, inner, closing, rest, rfl, closed, tail⟩ := demands
      simpa using takes_of_operand (.array spelled inner closed) tail
  | hash spelled =>
      obtain ⟨pairs, ts, rest, rfl, inner, closing, rest, rfl, closed, tail⟩ := demands
      simpa using takes_of_operand (.hash spelled inner closed) tail

/-- Tokens that make a larger operand of the one in front of them. -/
theorem ExprSlot.tail_of_grown {slot : ExprSlot} {closes : Node → List Token → Prop} {level : Nat}
    {left grown : Node} {t : Token} {ts input : List Token}
    (admits : slot.level < 8 → slot.Admits level) (weak : ∀ u ∈ input.head?, min u.level 8 ≤ level)
    (grows : ∀ ls, Spells (.expr (min t.level 8) left) ls → Spells (.expr level grown) (ls ++ t :: ts))
    (tail : slot.Tail closes grown input) : slot.Tail closes left (t :: (ts ++ input)) := by
  intro bounded
  obtain ⟨node, us, rest, rfl, further, after⟩ := tail bounded
  refine ⟨node, t :: (ts ++ us), rest, by simp, ?_, after⟩
  intro high ls _ first spells
  have larger := grows ls (spells.weaken (first t rfl))
  simpa using further level (ls ++ t :: ts) (admits bounded) weak larger

/-- An operator that takes the operand in front of it. -/
theorem ExprSlot.tail_of_extend {slot : ExprSlot} {left : Node} {t : Token} {input : List Token}
    (stronger : slot.level < t.level) (demands : (slot.extend left t).Demands program input) :
    slot.Tail (slot.Closes program) left (t :: input) := by
  have positive : 0 < t.level := by omega
  have spelled : t.spells t.text := Token.spells_text_of_level_pos positive
  have highest (u : Token) : min u.level 8 ≤ 8 := Nat.min_le_right ..
  rcases Token.level_pos_cases positive with member | ⟨opened, level⟩ | ⟨opened, level⟩
  · obtain ⟨same, -, below⟩ := mem_binaryOperators_iff.mp member
    rw [extend_binary member spelled] at demands
    obtain ⟨high, right, admits, us, rest, rfl, inner, weak, closes⟩ :=
      demands (show operatorLevel t.text < 8 by omega)
    -- The right operand is stronger than the operator and what follows it is not, so the two operands
    -- make an expression of the operator's own level that may go on.
    have tight : t.level + 1 ≤ high := by
      have admitted : operatorLevel t.text < high ∨ operatorLevel t.text = 7 ∧ high = 7 := admits
      omega
    have weaker : ∀ u ∈ rest.head?, min u.level 8 ≤ t.level := by
      intro u first
      have bound : u.level ≤ operatorLevel t.text := weak u first
      omega
    refine tail_of_grown (fun _ => .inl stronger) weaker ?_ closes
    intro ls spells
    rw [Nat.min_eq_left (by omega)] at spells
    exact .binary member spells spelled (inner.weaken tight)
  · have strongest : min t.level 8 = 8 := by omega
    rw [extend_call opened] at demands
    obtain ⟨nodes, us, rest, rfl, inner, closing, rest, rfl, closed, tail⟩ := demands
    have grown := tail_of_grown .inl (fun u _ => highest u)
      (fun ls spells => .call (strongest ▸ spells) opened inner closed) tail
    simpa using grown
  · have strongest : min t.level 8 = 8 := by omega
    rw [extend_index opened] at demands
    obtain ⟨position, us, rest, rfl, inner, -, closes⟩ := Takes.expr demands rfl
    obtain ⟨closing, rest, rfl, closed, tail⟩ := closes
    have grown := tail_of_grown .inl (fun u _ => highest u)
      (fun ls spells => .index (strongest ▸ spells) opened inner closed) tail
    simpa using grown

/-- A statement that ends with an expression. -/
theorem ListSlot.goesOn_of_takes {list : ListSlot} {slot : ExprSlot} {input : List Token}
    (make : Node → Node) (lead : List Token) (flat : slot.level = 0)
    (closes : ∀ {node rest}, slot.Closes program node rest → ∃ nodes,
      Parted (Spells (.statements nodes)) (list.Ends program (make node :: nodes)) rest)
    (statement : ∀ {node ts rest}, input = ts ++ rest → Spells (.expr 1 node) ts →
      Spells (.statement (make node)) (lead ++ ts))
    (takes : slot.Takes program input) : list.GoesOn program (lead ++ input) := by
  obtain ⟨node, ts, rest, rfl, inner, weak, closed⟩ := ExprSlot.Takes.expr takes flat
  obtain ⟨nodes, us, rest, rfl, more, ends⟩ := closes closed
  refine ⟨make node :: nodes, lead ++ ts ++ us, rest, by simp, ?_, ends⟩
  refine .statement (statement rfl inner) ?_ more
  intro next first
  refine Token.level_eq_zero_iff.mp (Nat.le_zero.mp (weak next ?_))
  rw [List.head?_append, first]
  rfl

/-- The start of a statement. -/
theorem ListSlot.goesOn_of_beginStatement {list : ListSlot} {t : Token} {phase : Phase}
    {input : List Token} (lexical : t.Lexical) (begun : list.beginStatement t = .ok phase)
    (demands : phase.Demands program input) : list.GoesOn program (t :: input) := by
  unfold beginStatement at begun
  split at begun
  · rename_i spelled
    cases begun
    obtain ⟨name, rest, rfl, kind, equals, rest, rfl, equal, takes⟩ := demands
    refine goesOn_of_takes (.binding t.line ⟨name.line, name.text⟩) [t, name, equals] rfl ?_ ?_ takes
    · exact id
    · intro node ts rest _ inner
      exact .binding spelled kind equal inner
  split at begun
  · rename_i spelled
    cases begun
    rcases demands with ⟨nodes, ts, rest, rfl, ⟨bare, more⟩, ends⟩ | takes
    · exact ⟨_, t :: ts, rest, rfl, .bareResult spelled bare more, ends⟩
    · refine goesOn_of_takes (fun node => .result t.line (some node)) [t] rfl ?_ ?_ takes
      · exact id
      · intro node ts rest _ inner
        exact .result spelled inner
  · have takes := ExprSlot.takes_of_begins (ExprSlot.begins_of_begin_eq lexical begun) demands
    refine goesOn_of_takes (.expression t.line) [] rfl ?_ ?_ takes
    · exact id
    · intro node ts rest same inner
      obtain ⟨first, more, rfl, -⟩ := inner.opens trivial
      cases same
      exact .expression inner

/-- The next token in a list of statements. -/
theorem ListSlot.goesOn_of_next {list : ListSlot} {t : Token} {phase : Phase} {input : List Token}
    (lexical : t.Lexical) (fed : list.next t = .ok phase) (demands : phase.Demands program input) :
    list.GoesOn program (t :: input) := by
  unfold next at fed
  split at fed
  · rename_i spelled
    cases fed
    obtain ⟨nodes, ts, rest, rfl, spells, ends⟩ := demands
    exact ⟨nodes, t :: ts, rest, rfl, .semicolon spelled spells, ends⟩
  cases list with
  | program line before =>
      simp only at fed
      split at fed
      · rename_i kind
        cases fed
        refine ⟨[], [], t :: input, rfl, .noStatements, ?_⟩
        simp only [Ends, List.append_nil]
        exact ⟨t, input, rfl, kind, Eq.symm demands⟩
      · exact goesOn_of_beginStatement lexical fed demands
  | block line before outer =>
      simp only at fed
      split at fed
      · rename_i spelled
        cases fed
        refine ⟨[], [], t :: input, rfl, .noStatements, ?_⟩
        simp only [Ends, List.append_nil]
        exact ⟨t, input, rfl, spelled, BlockSlot.closes_of_demands demands⟩
      · split at fed
        · cases fed
        · exact goesOn_of_beginStatement lexical fed demands

/-- The next token behind a statement. -/
theorem ListSlot.ends_of_next {list : ListSlot} {node : Node} {t : Token} {phase : Phase}
    {input : List Token} (lexical : t.Lexical) (fed : (list.add node).next t = .ok phase)
    (demands : phase.Demands program input) :
    ∃ nodes, Parted (Spells (.statements nodes)) (list.Ends program (node :: nodes)) (t :: input) := by
  obtain ⟨nodes, ts, rest, same, spells, ends⟩ := goesOn_of_next lexical fed demands
  exact ⟨nodes, ts, rest, same, spells, ends_add ends⟩

/-- The opening brace of a block. -/
theorem BlockSlot.parted_of_begin {slot : BlockSlot} {t : Token} {phase : Phase}
    {input : List Token} (fed : slot.begin t = .ok phase) (demands : phase.Demands program input) :
    ∃ block, Parted (Spells (.block block)) (slot.Closes program block) (t :: input) := by
  unfold begin at fed
  split at fed
  · rename_i opened
    cases fed
    obtain ⟨nodes, ts, rest, rfl, spells, ends⟩ := demands
    obtain ⟨closing, rest, rfl, closed, closes⟩ := ends
    exact ⟨_, t :: (ts ++ [closing]), rest, by simp, .block opened spells closed, closes⟩
  · cases fed

/-- The one mark that may come next. -/
theorem marked_of_fed {mark : String} {next after : Phase} {t : Token} {input : List Token}
    (fed : (if t.spells mark then .ok next else Step.expected mark t) = .ok after)
    (demands : after.Demands program input) : Marked mark (next.Demands program) (t :: input) := by
  split at fed
  · rename_i spelled
    cases fed
    exact ⟨t, input, rfl, spelled, demands⟩
  · cases fed

/-- The next token behind an item between brackets. -/
theorem Bracket.closes_of_next (bracket : Bracket) {before : List Node} {outer : ExprSlot}
    {left : Node} {t : Token} {phase : Phase} {input : List Token} (flat : t.level = 0)
    (fed : (bracket.slot before outer).next left t = .ok phase)
    (demands : phase.Demands program input) :
    (bracket.slot before outer).Closes program left (t :: input) := by
  rw [next_slot bracket before outer flat] at fed
  rw [closes_slot]
  split at fed
  · rename_i closed
    cases fed
    refine ⟨[], [], t :: input, rfl, ?_, t, input, rfl, closed, demands⟩
    intro ls spells
    rw [List.append_nil]
    exact .lastItem spells
  split at fed
  · rename_i separated
    cases fed
    obtain ⟨nodes, ts, rest, rfl, items, closing⟩ := takesOrEnds_slot.mp demands
    rw [List.append_assoc, List.singleton_append] at closing
    exact ⟨nodes, t :: ts, rest, rfl, fun ls spells => .item spells separated items, closing⟩
  · cases fed

/-- The next token behind an operand. -/
theorem ExprSlot.tail_of_next (slot : ExprSlot) {left : Node} {t : Token} {phase : Phase}
    {input : List Token} (lexical : t.Lexical) (fed : slot.next left t = .ok phase)
    (demands : phase.Demands program input) : slot.Tail (slot.Closes program) left (t :: input) := by
  by_cases stronger : slot.level < t.level
  · rw [next.eq_def, if_pos stronger] at fed
    cases fed
    exact tail_of_extend stronger demands
  have weak : Weak slot.level (t :: input) := by
    rintro u ⟨⟩
    exact Nat.not_lt.mp stronger
  refine tail_of_closes weak ?_
  -- The operand fills its place, and the token goes on with the larger piece.
  cases slot with
  | argument line callee before outer =>
      exact (Bracket.arguments line callee).closes_of_next (Nat.le_zero.mp (weak t rfl)) fed demands
  | item line before outer =>
      exact (Bracket.items line).closes_of_next (Nat.le_zero.mp (weak t rfl)) fed demands
  | statement line list =>
      rw [next.eq_def, if_neg stronger] at fed
      exact ListSlot.ends_of_next lexical fed demands
  | binding line name list =>
      rw [next.eq_def, if_neg stronger] at fed
      exact ListSlot.ends_of_next lexical fed demands
  | result line list =>
      rw [next.eq_def, if_neg stronger] at fed
      exact ListSlot.ends_of_next lexical fed demands
  | unary line operator outer =>
      rw [next.eq_def, if_neg stronger] at fed
      exact tail_of_next outer lexical fed demands
  | binary line before operator outer =>
      rw [next.eq_def, if_neg stronger] at fed
      exact tail_of_next outer lexical fed demands
  | group outer =>
      rw [next.eq_def, if_neg stronger] at fed
      exact marked_of_fed fed demands
  | position line subject outer =>
      rw [next.eq_def, if_neg stronger] at fed
      exact marked_of_fed fed demands
  | entryKey line before outer =>
      rw [next.eq_def, if_neg stronger] at fed
      simp only at fed
      split at fed
      · rename_i colon
        cases fed
        obtain ⟨value, us, rest, rfl, inner, -, closes⟩ := Takes.expr demands rfl
        obtain ⟨pairs, ts, rest, rfl, completes, closing⟩ := closes
        exact ⟨pairs, t :: (us ++ ts), rest, by simp,
          fun ls spells => completes ls t us spells colon inner, closing⟩
      · cases fed
  | entryValue line before key outer =>
      rw [next.eq_def, if_neg stronger] at fed
      simp only at fed
      split at fed
      · rename_i closed
        cases fed
        refine ⟨[(key, left)], [], t :: input, rfl, ?_, t, input, rfl, closed, demands⟩
        intro ks colon ls keySpelled marked spells
        rw [List.append_nil]
        exact .lastEntry keySpelled marked spells
      split at fed
      · rename_i separated
        cases fed
        obtain ⟨pairs, ts, rest, rfl, entries, closing⟩ := demands
        rw [List.append_assoc, List.singleton_append] at closing
        refine ⟨(key, left) :: pairs, t :: ts, rest, rfl, ?_, closing⟩
        intro ks colon ls keySpelled marked spells
        exact .entry keySpelled marked spells separated entries
      · cases fed
  | condition line outer =>
      rw [next.eq_def, if_neg stronger] at fed
      exact BlockSlot.parted_of_begin fed demands

/-- An item where the list might have ended. -/
theorem Bracket.takesOrEnds_of_takes (bracket : Bracket) {before : List Node} {outer : ExprSlot}
    {input : List Token} (takes : (bracket.slot before outer).Takes program input) :
    (bracket.slot before outer).TakesOrEnds program input := by
  obtain ⟨node, ls, rest, rfl, inner, -, closes⟩ := takes.expr (bracket.level_slot before outer)
  obtain ⟨nodes, ts, rest, rfl, completes, closing⟩ := closes_slot.mp closes
  exact takesOrEnds_slot.mpr ⟨node :: nodes, ls ++ ts, rest, by simp, completes ls inner, closing⟩

/-- The closing mark where an item might have stood. -/
theorem Bracket.takesOrEnds_of_end? (bracket : Bracket) {before : List Node} {outer : ExprSlot}
    {t : Token} {phase : Phase} {input : List Token}
    (ended : (bracket.slot before outer).end? t = some phase)
    (demands : phase.Demands program input) :
    (bracket.slot before outer).TakesOrEnds program (t :: input) := by
  rw [end?_slot] at ended
  obtain ⟨spelled, same⟩ := Option.ite_none_right_eq_some.mp ended
  cases same
  rw [takesOrEnds_slot]
  refine ⟨[], [], t :: input, rfl, .noItems, t, input, rfl, spelled, ?_⟩
  rw [List.append_nil]
  exact demands

/-- An expression in a place that may stay empty. -/
theorem ExprSlot.takesOrEnds_of_takes {slot : ExprSlot} {input : List Token}
    (takes : slot.Takes program input) : slot.TakesOrEnds program input := by
  cases slot with
  | argument line callee before outer =>
      exact (Bracket.arguments line callee).takesOrEnds_of_takes takes
  | item line before outer => exact (Bracket.items line).takesOrEnds_of_takes takes
  | entryKey line before outer =>
      obtain ⟨node, ls, rest, rfl, inner, -, closes⟩ := Takes.expr takes rfl
      obtain ⟨pairs, ts, rest, rfl, completes, closing⟩ := closes
      exact ⟨pairs, ls ++ ts, rest, by simp, completes ls inner, closing⟩
  | _ => exact takes

/-- The closing mark of a place that stays empty. -/
theorem ExprSlot.takesOrEnds_of_end? {slot : ExprSlot} {t : Token} {phase : Phase}
    {input : List Token} (ended : slot.end? t = some phase) (demands : phase.Demands program input) :
    slot.TakesOrEnds program (t :: input) := by
  cases slot with
  | argument line callee before outer =>
      exact (Bracket.arguments line callee).takesOrEnds_of_end? ended demands
  | item line before outer => exact (Bracket.items line).takesOrEnds_of_end? ended demands
  | entryKey line before outer =>
      obtain ⟨spelled, same⟩ := Option.ite_none_right_eq_some.mp ended
      cases same
      refine ⟨[], [], t :: input, rfl, .noEntries, t, input, rfl, spelled, ?_⟩
      rw [List.append_nil]
      exact demands
  | _ => cases ended

/-- The end of a parameter list. -/
theorem parametersEnd_of_closing {line : Int} {before : List Name} {outer : ExprSlot}
    {more : List Name → List Token → Prop} {t : Token} {input : List Token} (closed : t.spells ")")
    (nothing : more [] [])
    (demands : (Phase.opening (.body line before outer)).Demands program input) :
    ParametersEnd program line before outer more (t :: input) := by
  obtain ⟨body, us, rest, rfl, block, closes⟩ := demands
  refine ⟨[], body, [], t :: (us ++ rest), rfl, nothing, t, us ++ rest, rfl, closed, ?_⟩
  rw [List.append_nil]
  exact ⟨us, rest, rfl, block, closes⟩

/-- What stands behind a `return` without a value. -/
theorem ListSlot.bare_of_next {list : ListSlot} {line : Int} {t : Token} {phase : Phase}
    {input : List Token} (lexical : t.Lexical)
    (ended : (t.spells ";" || t.spells "\x7d" || t.kind == .eof) = true)
    (fed : (list.add (.result line none)).next t = .ok phase)
    (demands : phase.Demands program input) :
    ∃ nodes, Parted (fun ts => (∀ t ∈ ts.head?, t.spells ";") ∧ Spells (.statements nodes) ts)
      (list.Ends program (.result line none :: nodes)) (t :: input) := by
  obtain ⟨nodes, ts, rest, same, spells, ends⟩ := ends_of_next lexical fed demands
  refine ⟨nodes, ts, rest, same, ⟨?_, spells⟩, ends⟩
  intro u first
  have head : u = t := by
    have heads := congrArg List.head? same
    rw [List.head?_append, Option.mem_def.mp first] at heads
    exact (Option.some.inj heads).symm
  have brace := spells.head_spells_eq_false (show "\x7d" ∉ _ by decide) u first
  have more := spells.head_kind_ne_eof u first
  rw [head] at brace more ⊢
  simpa [brace, more] using ended

/-- A step of the reader leads to a phase that demands of the tokens behind what the phase before
demands of them and the token. -/
theorem Phase.demands_of_feed {phase after : Phase} {t : Token} {input : List Token}
    (lexical : t.Lexical) (fed : phase.feed t = .ok after) (demands : after.Demands program input) :
    phase.Demands program (t :: input) := by
  cases phase with
  | start => exact ⟨t, input, rfl, ListSlot.goesOn_of_next lexical fed demands⟩
  | statement list => exact ListSlot.goesOn_of_next lexical fed demands
  | operand slot => exact ExprSlot.takes_of_begins (ExprSlot.begins_of_begin_eq lexical fed) demands
  | operandOrEnd slot =>
      simp only [feed] at fed
      split at fed
      · rename_i ended
        cases fed
        exact ExprSlot.takesOrEnds_of_end? ended demands
      · refine ExprSlot.takesOrEnds_of_takes ?_
        exact ExprSlot.takes_of_begins (ExprSlot.begins_of_begin_eq lexical fed) demands
  | operator left slot => exact slot.tail_of_next lexical fed demands
  | bindingName line list =>
      simp only [feed] at fed
      split at fed
      · cases fed
        exact ⟨t, input, rfl, ‹_›, demands⟩
      · cases fed
  | bindingEquals line name list => exact marked_of_fed fed demands
  | resultOrEnd line list =>
      simp only [feed] at fed
      split at fed
      · rename_i ended
        exact .inl (ListSlot.bare_of_next lexical ended fed demands)
      · exact .inr (ExprSlot.takes_of_begins (ExprSlot.begins_of_begin_eq lexical fed) demands)
  | parameters line outer => exact marked_of_fed fed demands
  | parameterOrEnd line before outer =>
      simp only [feed] at fed
      split at fed
      · cases fed
        exact parametersEnd_of_closing ‹_› .noParameters demands
      split at fed
      · rename_i kind
        cases fed
        obtain ⟨names, body, ts, rest, rfl, more, closing⟩ := demands
        rw [List.append_assoc, List.singleton_append] at closing
        exact ⟨_, body, t :: ts, rest, rfl, more t kind, closing⟩
      · cases fed
  | parameterEnd line before outer =>
      simp only [feed] at fed
      split at fed
      · cases fed
        exact parametersEnd_of_closing ‹_› (fun _ kind => .lastParameter kind) demands
      split at fed
      · rename_i separated
        cases fed
        obtain ⟨names, body, ts, rest, rfl, more, closing⟩ := demands
        exact ⟨names, body, t :: ts, rest, rfl, fun _ kind => .parameter kind separated more, closing⟩
      · cases fed
  | opening slot => exact BlockSlot.parted_of_begin fed demands
  | afterThen line condition consequence outer =>
      simp only [feed] at fed
      split at fed
      · rename_i spelled
        cases fed
        obtain ⟨alternative, ts, rest, rfl, other, closes⟩ := demands
        refine ⟨_, t :: ts, rest, rfl, ?_, closes⟩
        rintro mark cs bs marked rfl conditionSpelled blockSpelled
        rcases other with block | ⟨inner, rfl, conditional⟩
        · exact .ifElse marked conditionSpelled blockSpelled spelled block
        · exact .elseIf marked conditionSpelled blockSpelled spelled conditional
      · have tail := ExprSlot.tail_of_next _ lexical fed demands
        refine ⟨_, [], t :: input, rfl, ?_, (outer.closes_iff _ _).mpr tail⟩
        rintro mark cs bs marked rfl conditionSpelled blockSpelled
        rw [List.append_nil]
        exact .ifThen marked conditionSpelled blockSpelled
  | afterElse line condition consequence elseLine outer =>
      simp only [feed] at fed
      split at fed
      · rename_i spelled
        cases fed
        obtain ⟨inner, cs, rest, rfl, innerSpelled, -, closes⟩ := ExprSlot.Takes.expr demands rfl
        obtain ⟨block, bs, rest, rfl, blockSpelled, node, ts, rest, rfl, completes, closes⟩ := closes
        exact ⟨_, t :: (cs ++ (bs ++ ts)), rest, by simp,
          .inr ⟨node, rfl, completes t cs bs spelled rfl innerSpelled blockSpelled⟩, closes⟩
      · obtain ⟨block, ts, rest, same, spells, closes⟩ := BlockSlot.parted_of_begin fed demands
        exact ⟨block, ts, rest, same, .inl spells, closes⟩
  | done read =>
      cases fed
      exact demands

/-! ## Rows of tokens -/

/-- A row that is read to its end fulfils what the phase before it demands. -/
theorem Phase.demands_of_feedAll {phase : Phase} {input : List Token}
    (lexical : ∀ t ∈ input, t.Lexical) (fed : phase.feedAll input = .ok (.done program)) :
    phase.Demands program input := by
  induction input generalizing phase with
  | nil =>
      cases fed
      rfl
  | cons t rest ih =>
      rw [feedAll_cons] at fed
      cases step : phase.feed t with
      | error e =>
          rw [step] at fed
          cases fed
      | ok after =>
          rw [step] at fed
          have demands := ih (fun u member => lexical u (List.mem_cons_of_mem t member)) fed
          exact demands_of_feed (lexical t List.mem_cons_self) step demands

/-- A row of tokens has one split at its first end of input. -/
theorem eq_of_append_eof {tokens ts more : List Token} {e t : Token}
    (ongoing : ∀ u ∈ tokens, u.kind ≠ .eof) (ending : t.kind = .eof)
    (same : tokens ++ [e] = ts ++ t :: more) : ts = tokens := by
  rcases List.append_eq_append_iff.mp same with ⟨gap, rfl, rest⟩ | ⟨gap, rfl, rest⟩
  · cases gap with
    | nil => exact List.append_nil tokens
    | cons u gap => simp at rest
  · cases gap with
    | nil => exact (List.append_nil ts).symm
    | cons u gap =>
        cases rest
        exact absurd ending (ongoing t (by simp))

/-- The reader accepts programs of the grammar only, and gives them the tree of the grammar. -/
theorem spellsProgram_of_feedAll {line : Int} {tokens : List Token}
    (lexical : ∀ t ∈ tokens, t.Lexical) (ongoing : ∀ t ∈ tokens, t.kind ≠ .eof)
    (fed : Phase.start.feedAll (tokens ++ [.eof line]) = .ok (.done program)) :
    SpellsProgram line tokens program := by
  have all : ∀ t ∈ tokens ++ [Token.eof line], t.Lexical := by
    intro t member
    rcases List.mem_append.mp member with inside | last
    · exact lexical t inside
    · rw [List.mem_singleton.mp last]
      trivial
  obtain ⟨first, rest, head, nodes, ts, after, same, spells, ends⟩ := Phase.demands_of_feedAll all fed
  simp only [ListSlot.Ends, List.nil_append] at ends
  obtain ⟨e, more, rfl, kind, rfl⟩ := ends
  rw [eq_of_append_eof ongoing kind same] at spells
  refine ⟨nodes, ?_, spells⟩
  cases tokens with
  | nil =>
      cases head
      rfl
  | cons t tokens =>
      cases head
      rfl

end Treewalk

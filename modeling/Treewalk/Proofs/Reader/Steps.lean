import Treewalk.Proofs.Reader.Grammar
import Treewalk.Proofs.Source.Tokens
import Treewalk.Reader.Phase

/-!
# Steps of the reader

What the reader asks of a token, in the terms of the grammar: how strongly it binds, whether it may
start an expression, and which phase it leads to from there.
-/

namespace Treewalk

/-! ## Marks and levels -/

namespace Token

variable {t : Token}

theorem spells_iff {mark : String} :
    t.spells mark = true ↔ (t.kind = .operator ∨ t.kind = .keyword) ∧ t.text = mark := by
  simp [spells]

/-- A token spells one mark at most. -/
theorem spells_eq_false {mark other : String} (spelled : t.spells mark) (distinct : mark ≠ other) :
    t.spells other = false := by
  rw [Bool.eq_false_iff]
  intro also
  exact distinct ((spells_iff.mp spelled).2.symm.trans (spells_iff.mp also).2)

theorem kind_ne_eof_of_spells {mark : String} (spelled : t.spells mark) : t.kind ≠ .eof := by
  rcases (spells_iff.mp spelled).1 with kind | kind <;> simp [kind]

theorem level_of_spells {mark : String} (spelled : t.spells mark) :
    t.level = operatorLevel mark := by
  obtain ⟨kind, rfl⟩ := spells_iff.mp spelled
  simp [level, kind]

/-- A token of positive level is the operator or keyword that its text says. -/
theorem spells_text_of_level_pos (positive : 0 < t.level) : t.spells t.text := by
  unfold level at positive
  split at positive
  · exact spells_iff.mpr ⟨‹_›, rfl⟩
  · cases positive

end Token

/-- Whatever has a level is a binary operator of that level or opens a call or an indexing. -/
theorem operatorLevel_pos_cases {operator : String} (positive : 0 < operatorLevel operator) :
    operator ∈ binaryOperators (operatorLevel operator) ∨ operator = "(" ∨ operator = "[" := by
  unfold operatorLevel at positive ⊢
  split at positive <;> simp_all [binaryOperators]

/-- The levels of the reader are those of the grammar. -/
theorem mem_binaryOperators_iff {operator : String} {level : Nat} :
    operator ∈ binaryOperators level ↔ operatorLevel operator = level ∧ 0 < level ∧ level < 7 := by
  constructor
  · intro member
    unfold binaryOperators at member
    split at member <;> simp at member
    all_goals
      rcases member with rfl | rfl | rfl | rfl
      all_goals simp [operatorLevel]
  · rintro ⟨rfl, positive, below⟩
    rcases operatorLevel_pos_cases positive with member | rfl | rfl
    · exact member
    · exact absurd below (by decide)
    · exact absurd below (by decide)

/-- A token of positive level is a binary operator or opens a call or an indexing. -/
theorem Token.level_pos_cases {t : Token} (positive : 0 < t.level) :
    t.text ∈ binaryOperators t.level ∨ t.spells "(" ∧ t.level = 8 ∨ t.spells "[" ∧ t.level = 9 := by
  have spelled := spells_text_of_level_pos positive
  rw [level_of_spells spelled] at positive ⊢
  rcases operatorLevel_pos_cases positive with member | opening | opening
  · exact .inl member
  · rw [opening] at spelled ⊢
    exact .inr (.inl ⟨spelled, rfl⟩)
  · rw [opening] at spelled ⊢
    exact .inr (.inr ⟨spelled, rfl⟩)

/-- The tokens that extend an expression are those with a level. -/
theorem Token.level_eq_zero_iff {t : Token} : t.level = 0 ↔ ¬ t.Extends := by
  constructor
  · rintro flat (⟨level, operator, member, spelled⟩ | spelled | spelled)
    · have positive := (mem_binaryOperators_iff.mp member).2.1
      rw [level_of_spells spelled, (mem_binaryOperators_iff.mp member).1] at flat
      omega
    · rw [level_of_spells spelled] at flat
      cases flat
    · rw [level_of_spells spelled] at flat
      cases flat
  · intro closed
    rw [← Nat.le_zero, ← Nat.not_lt]
    intro positive
    have spelled := spells_text_of_level_pos positive
    rcases level_pos_cases positive with member | ⟨opening, -⟩ | ⟨opening, -⟩
    · exact closed (.inl ⟨t.level, t.text, member, spelled⟩)
    · exact closed (.inr (.inl opening))
    · exact closed (.inr (.inr opening))

/-! ## Openers -/

/-- The marks that an expression may start with. -/
def openers : List String := ["true", "false", "!", "-", "(", "if", "fn", "[", "\x7b"]

/-- A token that an expression may start with. -/
def Token.Opens (t : Token) : Prop :=
  t.kind = .number ∨ t.kind = .text ∨ t.kind = .name ∨ ∃ mark ∈ openers, t.spells mark

namespace Token.Opens

variable {t : Token}

theorem kind_ne_eof (opens : t.Opens) : t.kind ≠ .eof := by
  rcases opens with kind | kind | kind | ⟨mark, -, spelled⟩
  · simp [kind]
  · simp [kind]
  · simp [kind]
  · exact kind_ne_eof_of_spells spelled

theorem spells_eq_false (opens : t.Opens) {mark : String} (other : mark ∉ openers) :
    t.spells mark = false := by
  rcases opens with kind | kind | kind | ⟨opener, member, spelled⟩
  · simp [spells, kind]
  · simp [spells, kind]
  · simp [spells, kind]
  · refine Token.spells_eq_false spelled ?_
    rintro rfl
    exact other member

end Token.Opens

/-- The phrases that an expression may be. -/
def Phrase.isOperand : Phrase → Prop
  | .expr .. | .conditional .. => True
  | _ => False

/-- An expression is not empty, and starts with an opener. -/
theorem Spells.opens {phrase : Phrase} {ts : List Token} (spells : Spells phrase ts)
    (operand : phrase.isOperand) : ∃ first more, ts = first :: more ∧ first.Opens := by
  have mark {t : Token} {text : String} (spelled : t.spells text) (member : text ∈ openers) :
      t.Opens := .inr (.inr (.inr ⟨text, member, spelled⟩))
  induction spells with
  | weaker _ ih => exact ih trivial
  | conditional _ ih => exact ih trivial
  | binary _ _ _ _ ih _ =>
      obtain ⟨first, more, rfl, opens⟩ := ih trivial
      exact ⟨first, _, rfl, opens⟩
  | call _ _ _ _ ih _ =>
      obtain ⟨first, more, rfl, opens⟩ := ih trivial
      exact ⟨first, _, rfl, opens⟩
  | index _ _ _ _ ih _ =>
      obtain ⟨first, more, rfl, opens⟩ := ih trivial
      exact ⟨first, _, rfl, opens⟩
  | unary member spelled _ _ =>
      refine ⟨_, _, rfl, mark spelled ?_⟩
      simp only [List.mem_cons, List.not_mem_nil, or_false] at member
      rcases member with rfl | rfl <;> decide
  | number kind _ => exact ⟨_, _, rfl, .inl kind⟩
  | text kind => exact ⟨_, _, rfl, .inr (.inl kind)⟩
  | identifier kind => exact ⟨_, _, rfl, .inr (.inr (.inl kind))⟩
  | yes spelled => exact ⟨_, _, rfl, mark spelled (by decide)⟩
  | no spelled => exact ⟨_, _, rfl, mark spelled (by decide)⟩
  | group spelled _ _ _ => exact ⟨_, _, rfl, mark spelled (by decide)⟩
  | function spelled _ _ _ _ _ _ => exact ⟨_, _, rfl, mark spelled (by decide)⟩
  | array spelled _ _ _ => exact ⟨_, _, rfl, mark spelled (by decide)⟩
  | hash spelled _ _ _ => exact ⟨_, _, rfl, mark spelled (by decide)⟩
  | ifThen spelled _ _ _ _ => exact ⟨_, _, rfl, mark spelled (by decide)⟩
  | ifElse spelled _ _ _ _ _ _ _ => exact ⟨_, _, rfl, mark spelled (by decide)⟩
  | elseIf spelled _ _ _ _ _ _ _ => exact ⟨_, _, rfl, mark spelled (by decide)⟩
  | _ => cases operand

/-- What a list of statements may start with. -/
theorem Spells.head_cases {nodes : List Node} {ts : List Token}
    (spells : Spells (.statements nodes) ts) :
    ∀ t ∈ ts.head?, t.Opens ∨ ∃ mark ∈ [";", "let", "return"], t.spells mark := by
  have marked {first : Token} {more : List Token} {mark : String} (spelled : first.spells mark)
      (member : mark ∈ [";", "let", "return"]) :
      ∀ t ∈ (first :: more).head?, t.Opens ∨ ∃ mark ∈ [";", "let", "return"], t.spells mark := by
    rintro t ⟨⟩
    exact .inr ⟨mark, member, spelled⟩
  cases spells with
  | noStatements => simp
  | semicolon spelled _ => exact marked spelled (by decide)
  | bareResult spelled _ _ => exact marked spelled (by decide)
  | statement statement _ _ =>
      cases statement with
      | binding spelled _ _ _ => exact marked spelled (by decide)
      | result spelled _ => exact marked spelled (by decide)
      | expression inner =>
          obtain ⟨first, more, same, opens⟩ := inner.opens trivial
          cases same
          rintro t ⟨⟩
          exact .inl opens

/-- No list of statements starts with another mark. So an `else` behind a conditional belongs to it,
and a brace behind a list ends it. -/
theorem Spells.head_spells_eq_false {nodes : List Node} {ts : List Token} {mark : String}
    (spells : Spells (.statements nodes) ts) (other : mark ∉ [";", "let", "return"] ++ openers) :
    ∀ t ∈ ts.head?, t.spells mark = false := by
  intro t first
  rw [List.mem_append, not_or] at other
  rcases spells.head_cases t first with opens | ⟨start, member, spelled⟩
  · exact opens.spells_eq_false other.2
  · refine Token.spells_eq_false spelled ?_
    rintro rfl
    exact other.1 member

theorem Spells.head_kind_ne_eof {nodes : List Node} {ts : List Token}
    (spells : Spells (.statements nodes) ts) : ∀ t ∈ ts.head?, t.kind ≠ .eof := by
  intro t first
  rcases spells.head_cases t first with opens | ⟨start, member, spelled⟩
  · exact opens.kind_ne_eof
  · exact Token.kind_ne_eof_of_spells spelled

/-- What `ExprSlot.begin` makes of each opener. -/
inductive ExprSlot.Begins (slot : ExprSlot) (t : Token) : Phase → Prop
  | number {value : Number} : t.kind = .number → Number.ofText? t.text = some value →
      Begins slot t (.operator (.number t.line value t.text) slot)
  | text : t.kind = .text → Begins slot t (.operator (.text t.line t.text) slot)
  | identifier : t.kind = .name → Begins slot t (.operator (.identifier t.line t.text) slot)
  | yes : t.spells "true" → Begins slot t (.operator (.boolean t.line true) slot)
  | no : t.spells "false" → Begins slot t (.operator (.boolean t.line false) slot)
  | unary {operator : String} : operator ∈ ["!", "-"] → t.spells operator →
      Begins slot t (.operand (.unary t.line operator slot))
  | group : t.spells "(" → Begins slot t (.operand (.group slot))
  | condition : t.spells "if" → Begins slot t (.operand (.condition t.line (.operand slot)))
  | function : t.spells "fn" → Begins slot t (.parameters t.line slot)
  | array : t.spells "[" → Begins slot t (.operandOrEnd (.item t.line [] slot))
  | hash : t.spells "\x7b" → Begins slot t (.operandOrEnd (.entryKey t.line [] slot))

theorem Token.opener_of_spells {t : Token} {mark : String} (spelled : t.spells mark) :
    t.opener = mark := by
  obtain ⟨kind, rfl⟩ := spells_iff.mp spelled
  rcases kind with kind | kind <;> simp [opener, kind]

theorem ExprSlot.Begins.begin_eq {slot : ExprSlot} {t : Token} {phase : Phase}
    (begins : slot.Begins t phase) : slot.begin t = .ok phase := by
  have mark {text : String} (spelled : t.spells text) : t.kind ≠ .eof ∧ t.opener = text :=
    ⟨Token.kind_ne_eof_of_spells spelled, Token.opener_of_spells spelled⟩
  unfold ExprSlot.begin
  cases begins with
  | number kind value => simp [kind, Token.opener, value]
  | text kind => simp [kind, Token.opener]
  | identifier kind => simp [kind, Token.opener]
  | unary member spelled =>
      have text := (Token.spells_iff.mp spelled).2
      rw [if_neg (mark spelled).1, (mark spelled).2, text]
      simp only [List.mem_cons, List.not_mem_nil, or_false] at member
      rcases member with rfl | rfl <;> rfl
  | yes spelled =>
      rw [if_neg (mark spelled).1, (mark spelled).2]
      rfl
  | no spelled =>
      rw [if_neg (mark spelled).1, (mark spelled).2]
      rfl
  | group spelled =>
      rw [if_neg (mark spelled).1, (mark spelled).2]
      rfl
  | condition spelled =>
      rw [if_neg (mark spelled).1, (mark spelled).2]
      rfl
  | function spelled =>
      rw [if_neg (mark spelled).1, (mark spelled).2]
      rfl
  | array spelled =>
      rw [if_neg (mark spelled).1, (mark spelled).2]
      rfl
  | hash spelled =>
      rw [if_neg (mark spelled).1, (mark spelled).2]
      rfl

/-- The opener of a token tells its kind: no keyword and no operator is called as a kind is. -/
theorem Token.Lexical.opener_cases {t : Token} (lexical : t.Lexical) (more : t.kind ≠ .eof) :
    t.kind = .number ∧ t.opener = "number" ∨ t.kind = .text ∧ t.opener = "string" ∨
      t.kind = .name ∧ t.opener = "ident" ∨
      t.spells t.opener ∧ t.opener ∈ keywords ++ operatorTexts := by
  cases kind : t.kind with
  | number => simp [opener, kind]
  | text => simp [opener, kind]
  | name => simp [opener, kind]
  | eof => exact absurd kind more
  | keyword =>
      rw [Lexical, kind] at lexical
      simp [opener, kind, spells_iff, lexical]
  | operator =>
      rw [Lexical, kind] at lexical
      simp [opener, kind, spells_iff, lexical]
  | other label =>
      rw [Lexical, kind] at lexical
      exact lexical.elim

/-- Only openers begin an expression. -/
theorem ExprSlot.begins_of_begin_eq {slot : ExprSlot} {t : Token} {phase : Phase}
    (lexical : t.Lexical) (ok : slot.begin t = .ok phase) : slot.Begins t phase := by
  unfold ExprSlot.begin at ok
  split at ok
  · cases ok
  rename_i more
  rcases lexical.opener_cases more with
    ⟨kind, opener⟩ | ⟨kind, opener⟩ | ⟨kind, opener⟩ | ⟨spelled, member⟩
  · rw [opener] at ok
    simp only at ok
    split at ok
    · rename_i value
      cases ok
      exact .number kind value
    · cases ok
  · rw [opener] at ok
    cases ok
    exact .text kind
  · rw [opener] at ok
    cases ok
    exact .identifier kind
  · have mark (text : String) (opener : t.opener = text) : t.spells text := opener ▸ spelled
    have unary (text : String) (opener : t.opener = text) (prefixed : text ∈ ["!", "-"]) :
        slot.Begins t (.operand (.unary t.line t.text slot)) := by
      rw [(Token.spells_iff.mp (mark text opener)).2]
      exact .unary prefixed (mark text opener)
    have other (text : String) (opener : t.opener = text)
        (none : text ∉ Token.keywords ++ operatorTexts) : slot.Begins t phase :=
      absurd (opener ▸ member) none
    split at ok
    · next opener => exact other _ opener (by decide)
    · next opener => exact other _ opener (by decide)
    · next opener => exact other _ opener (by decide)
    all_goals cases ok
    · next opener => exact .yes (mark _ opener)
    · next opener => exact .no (mark _ opener)
    · next opener => exact unary _ opener (by decide)
    · next opener => exact unary _ opener (by decide)
    · next opener => exact .group (mark _ opener)
    · next opener => exact .condition (mark _ opener)
    · next opener => exact .function (mark _ opener)
    · next opener => exact .array (mark _ opener)
    · next opener => exact .hash (mark _ opener)

/-! ## Places -/

/-- Whether an expression of a level may stand in a place. A prefix operator takes operands of its own
level, all others only stronger ones. -/
def ExprSlot.Admits (slot : ExprSlot) (level : Nat) : Prop :=
  slot.level < level ∨ slot.level = 7 ∧ level = 7

/-- A place without an operator in front takes every expression. -/
theorem ExprSlot.admits_one {slot : ExprSlot} (flat : slot.level = 0) : slot.Admits 1 := by
  left
  omega

theorem ExprSlot.Admits.level_lt {slot : ExprSlot} {level : Nat} (admits : slot.Admits level)
    (other : level ≠ 7) : slot.level < level := by
  rcases admits with below | ⟨-, same⟩
  · exact below
  · exact absurd same other

/-- A binary operator takes the operand in front of it as its left operand. -/
theorem ExprSlot.extend_binary {slot : ExprSlot} {left : Node} {mark : Token} {operator : String}
    {level : Nat} (member : operator ∈ binaryOperators level) (spelled : mark.spells operator) :
    slot.extend left mark = .operand (.binary mark.line left operator slot) := by
  have text := (Token.spells_iff.mp spelled).2
  obtain ⟨same, -, below⟩ := mem_binaryOperators_iff.mp member
  unfold extend
  rw [text]
  split
  · simp [operatorLevel] at same
    omega
  · simp [operatorLevel] at same
    omega
  · rfl

theorem ExprSlot.extend_call {slot : ExprSlot} {left : Node} {mark : Token}
    (spelled : mark.spells "(") :
    slot.extend left mark = .operandOrEnd (.argument mark.line left [] slot) := by
  rw [extend, (Token.spells_iff.mp spelled).2]
  rfl

theorem ExprSlot.extend_index {slot : ExprSlot} {left : Node} {mark : Token}
    (spelled : mark.spells "[") :
    slot.extend left mark = .operand (.position mark.line left slot) := by
  rw [extend, (Token.spells_iff.mp spelled).2]
  rfl

/-- The two lists of expressions between brackets: the arguments of a call and the items of an
array. -/
inductive Bracket where
  | arguments (line : Int) (callee : Node)
  | items (line : Int)

namespace Bracket

/-- The place of the next item. -/
def slot (bracket : Bracket) (before : List Node) (outer : ExprSlot) : ExprSlot :=
  match bracket with
  | .arguments line callee => .argument line callee before outer
  | .items line => .item line before outer

/-- The mark that closes the list. -/
def closing : Bracket → String
  | .arguments .. => ")"
  | .items .. => "]"

/-- What the items make. -/
def node (bracket : Bracket) (items : List Node) : Node :=
  match bracket with
  | .arguments line callee => .call line callee items
  | .items line => .array line items

theorem closing_cases (bracket : Bracket) : bracket.closing = ")" ∨ bracket.closing = "]" := by
  cases bracket <;> simp [closing]

theorem level_slot (bracket : Bracket) (before : List Node) (outer : ExprSlot) :
    (bracket.slot before outer).level = 0 := by
  cases bracket <;> rfl

theorem end?_slot (bracket : Bracket) (before : List Node) (outer : ExprSlot) (t : Token) :
    (bracket.slot before outer).end? t =
      if t.spells bracket.closing then some (.operator (bracket.node before) outer) else none := by
  cases bracket <;> rfl

theorem next_slot (bracket : Bracket) (before : List Node) (outer : ExprSlot) {t : Token}
    (flat : t.level = 0) (left : Node) :
    (bracket.slot before outer).next left t =
      if t.spells bracket.closing then .ok (.operator (bracket.node (before ++ [left])) outer)
      else if t.spells "," then .ok (.operandOrEnd (bracket.slot (before ++ [left]) outer))
      else Step.expected "," t := by
  have stays : ¬ (bracket.slot before outer).level < t.level := by
    rw [level_slot, flat]
    exact Nat.lt_irrefl 0
  rw [ExprSlot.next.eq_def, if_neg stays]
  cases bracket <;> rfl

end Bracket

/-! ## Rows of tokens -/

namespace Phase

variable {phase after : Phase} {t : Token} {rest : List Token}

theorem feedAll_cons (phase : Phase) (t : Token) (rest : List Token) :
    phase.feedAll (t :: rest) = (phase.feed t).bind fun after => after.feedAll rest := rfl

theorem feedAll_singleton (phase : Phase) (t : Token) : phase.feedAll [t] = phase.feed t :=
  bind_pure (phase.feed t)

theorem feedAll_append (phase : Phase) (row rest : List Token) :
    phase.feedAll (row ++ rest) = (phase.feedAll row).bind fun after => after.feedAll rest :=
  List.foldlM_append

theorem feedAll_of_feed (fed : phase.feed t = .ok after) :
    phase.feedAll (t :: rest) = after.feedAll rest := by
  rw [feedAll_cons, fed]
  rfl

theorem feedAll_congr (same : phase.feed t = after.feed t) :
    phase.feedAll (t :: rest) = after.feedAll (t :: rest) := by
  rw [feedAll_cons, feedAll_cons, same]

end Phase

end Treewalk

import Treewalk.Proofs.Reader.Exact
import Treewalk.Proofs.Source.Partition
import Treewalk.Proofs.Tree.Places

/-!
# The tokens that nodes stand for

Every node of a program that was read has its line from one token of the source, and its form tells
which: an operator from the token that spells it, a call from its opening parenthesis, an indexing from
its opening bracket, a name from itself. `Node.Marks` is the table, `Spells.marked` goes through the
grammar, and `marked_of_parse` is the result for sources; since tokens stand on lines of the source, so
do nodes.
-/

namespace Treewalk

/-- The operators between two operands that are always both run. -/
def infixOperators : List String := ["==", "!=", "<", ">", "<=", ">=", "+", "-", "*", "/"]

theorem mem_infixOperators {level : Nat} {operator : String}
    (member : operator ∈ binaryOperators level) (decides : ¬ (operator = "and" ∨ operator = "or")) :
    operator ∈ infixOperators := by
  unfold binaryOperators at member
  split at member
  all_goals simp only [List.mem_cons, List.not_mem_nil, or_false] at member
  · exact absurd (.inr member) decides
  · exact absurd (.inl member) decides
  all_goals rcases member with rfl | rfl | rfl | rfl <;> decide

namespace Node

/-- Whether a token is of the kind that a node has its line from. A statement that is an expression has
the line of whatever token comes first in it, and so has a program. -/
def Marks (t : Token) : Node → Prop
  | .missing | .bare _ => False
  | .identifier _ name => t.kind = .name ∧ t.text = name
  | .number _ _ literal => t.kind = .number ∧ t.text = literal
  | .text _ value => t.kind = .text ∧ t.text = value
  | .boolean _ value => t.spells (if value then "true" else "false")
  | .unary _ operator _ => operator ∈ ["!", "-"] ∧ t.spells operator
  | .binary _ _ operator _ => operator ∈ infixOperators ∧ t.spells operator
  | .logical _ _ operator _ => operator ∈ ["and", "or"] ∧ t.spells operator
  | .conditional .. => t.spells "if"
  | .function .. => t.spells "fn"
  | .call .. => t.spells "("
  | .array .. | .index .. => t.spells "["
  | .hash .. => t.spells "\x7b"
  | .binding .. => t.spells "let"
  | .result .. => t.spells "return"
  | .block .. => t.spells "\x7b" ∨ t.spells "else"
  | .expression .. | .program .. => True

/-- A node has its line from one of the tokens, and each of its names stands where it is spelled. -/
structure Marked (tokens : List Token) (node : Node) : Prop where
  mark : ∃ t ∈ tokens, t.line = node.line ∧ node.Marks t
  names : ∀ name ∈ node.names, ∃ t ∈ tokens, t.kind = .name ∧ t.text = name.text ∧ t.line = name.line

theorem Marked.mono {tokens more : List Token} {node : Node} (marked : node.Marked tokens)
    (sub : tokens ⊆ more) : node.Marked more := by
  refine ⟨?_, fun name member => ?_⟩
  · obtain ⟨t, inside, marks⟩ := marked.mark
    exact ⟨t, sub inside, marks⟩
  · obtain ⟨t, inside, spelled⟩ := marked.names name member
    exact ⟨t, sub inside, spelled⟩

end Node

/-! ## The grammar marks every node -/

/-- The names that a phrase is made of. -/
def Phrase.names : Phrase → List Name
  | .parameters names => names
  | _ => []

/-- Every name in a row of parameters stands where it is spelled. -/
theorem Spells.named {phrase : Phrase} {ts : List Token} (spells : Spells phrase ts) :
    ∀ name ∈ phrase.names, ∃ t ∈ ts, t.kind = .name ∧ t.text = name.text ∧ t.line = name.line := by
  induction spells with
  | @lastParameter t isName =>
      intro name member
      rw [List.mem_singleton.mp member]
      exact ⟨t, by simp, isName, rfl, rfl⟩
  | @parameter t comma names ts isName _ _ ih =>
      intro name member
      rcases List.mem_cons.mp member with rfl | later
      · exact ⟨t, by simp, isName, rfl, rfl⟩
      · obtain ⟨other, inside, spelled⟩ := ih name later
        exact ⟨other, by simp [inside], spelled⟩
  | _ =>
      intro name member
      cases member

section Rules

variable {tokens ts : List Token}

/-- More tokens mark no less. -/
theorem everyMarked_mono {nodes : List Node} (marked : ∀ node ∈ nodes, node.Every (Node.Marked ts))
    (sub : ∀ t ∈ ts, t ∈ tokens) : ∀ node ∈ nodes, node.Every (Node.Marked tokens) :=
  fun node member => (marked node member).mono fun _ here => here.mono sub

theorem everyMarked_append {nodes others : List Node}
    (first : ∀ node ∈ nodes, node.Every (Node.Marked tokens))
    (second : ∀ node ∈ others, node.Every (Node.Marked tokens)) :
    ∀ node ∈ nodes ++ others, node.Every (Node.Marked tokens) :=
  List.forall_mem_append.mpr ⟨first, second⟩

/-- A node that holds no names, above marked nodes. -/
theorem everyMarked_node {node : Node} (t : Token) (member : t ∈ tokens) (line : t.line = node.line)
    (marks : node.Marks t) (nameless : node.names = [])
    (below : ∀ child ∈ node.children, child.Every (Node.Marked tokens)) :
    ∀ other ∈ [node], other.Every (Node.Marked tokens) := by
  intro other inside
  rw [List.mem_singleton.mp inside]
  exact .intro ⟨⟨t, member, line, marks⟩, by simp [nameless]⟩ below

end Rules

/-- What the grammar gives is marked by the tokens that spell it. -/
theorem Spells.marked {phrase : Phrase} {ts : List Token} (spells : Spells phrase ts) :
    ∀ node ∈ phrase.nodes, node.Every (Node.Marked ts) := by
  induction spells with
  | noStatements | noItems | noEntries | noParameters | lastParameter | parameter =>
      intro node member
      cases member
  | weaker _ ih | lastItem _ ih | conditional _ ih => exact ih
  | semicolon _ _ ih | group _ _ _ ih => exact everyMarked_mono ih (by simp +contextual)
  | statement _ _ _ ih ihRest | item _ _ _ ih ihRest =>
      exact everyMarked_append (everyMarked_mono ih (by simp +contextual))
        (everyMarked_mono ihRest (by simp +contextual))
  | @bareResult mark nodes ts isReturn _ _ ih =>
      have here : ∀ node ∈ [Node.result mark.line none], node.Every (Node.Marked (mark :: ts)) :=
        everyMarked_node mark (by simp) rfl isReturn rfl (by simp [Node.children])
      exact everyMarked_append here (everyMarked_mono ih (by simp +contextual))
  | @binding mark name equals value ts isLet isName _ _ ih =>
      intro node member
      rw [List.mem_singleton.mp member]
      refine .intro ⟨⟨mark, by simp, rfl, isLet⟩, ?_⟩ (everyMarked_mono ih (by simp +contextual))
      intro other inside
      rw [List.mem_singleton.mp inside]
      exact ⟨name, by simp, isName, rfl, rfl⟩
  | @result mark _ _ isReturn _ ih =>
      exact everyMarked_node mark (by simp) rfl isReturn rfl (everyMarked_mono ih (by simp +contextual))
  | @expression first _ _ _ ih => exact everyMarked_node first (by simp) rfl trivial rfl ih
  | @binary level operator mark left right ts us member _ spelled _ ihLeft ihRight =>
      have below : ∀ node ∈ [left, right], node.Every (Node.Marked (ts ++ mark :: us)) :=
        everyMarked_append (everyMarked_mono ihLeft (by simp +contextual))
          (everyMarked_mono ihRight (by simp +contextual))
      unfold Node.joined
      split
      case isTrue decides =>
        exact everyMarked_node mark (by simp) rfl ⟨by simpa using decides, spelled⟩ rfl below
      case isFalse both =>
        exact everyMarked_node mark (by simp) rfl ⟨mem_infixOperators member both, spelled⟩ rfl below
  | @unary operator mark _ _ member spelled _ ih =>
      exact everyMarked_node mark (by simp) rfl ⟨member, spelled⟩ rfl
        (everyMarked_mono ih (by simp +contextual))
  | @call opening _ _ _ _ _ _ isOpening _ _ ihCallee ih =>
      exact everyMarked_node opening (by simp) rfl isOpening rfl
        (everyMarked_append (everyMarked_mono ihCallee (by simp +contextual))
          (everyMarked_mono ih (by simp +contextual)))
  | @index opening _ _ _ _ _ _ isOpening _ _ ihSubject ih =>
      exact everyMarked_node opening (by simp) rfl isOpening rfl
        (everyMarked_append (everyMarked_mono ihSubject (by simp +contextual))
          (everyMarked_mono ih (by simp +contextual)))
  | @number t _ isNumber _ =>
      exact everyMarked_node t (by simp) rfl ⟨isNumber, rfl⟩ rfl (by simp [Node.children])
  | @text t isText => exact everyMarked_node t (by simp) rfl ⟨isText, rfl⟩ rfl (by simp [Node.children])
  | @identifier t isName =>
      exact everyMarked_node t (by simp) rfl ⟨isName, rfl⟩ rfl (by simp [Node.children])
  | @yes t isTrue => exact everyMarked_node t (by simp) rfl isTrue rfl (by simp [Node.children])
  | @no t isFalse => exact everyMarked_node t (by simp) rfl isFalse rfl (by simp [Node.children])
  | @function mark opening closing parameters body ts us isFn _ named _ _ _ ih =>
      intro node member
      rw [List.mem_singleton.mp member]
      refine .intro ⟨⟨mark, by simp, rfl, isFn⟩, ?_⟩ (everyMarked_mono ih (by simp +contextual))
      intro name inside
      obtain ⟨t, among, spelled⟩ := named.named name inside
      exact ⟨t, by simp [among], spelled⟩
  | @array opening _ _ _ isOpening _ _ ih | @hash opening _ _ _ isOpening _ _ ih =>
      exact everyMarked_node opening (by simp) rfl isOpening rfl
        (everyMarked_mono ih (by simp +contextual))
  | @block opening _ _ _ isOpening _ _ ih =>
      exact everyMarked_node opening (by simp) rfl (.inl isOpening) rfl
        (everyMarked_mono ih (by simp +contextual))
  | @ifThen mark _ _ _ _ isIf _ _ ihCondition ih =>
      exact everyMarked_node mark (by simp) rfl isIf rfl
        (everyMarked_append (everyMarked_mono ihCondition (by simp +contextual))
          (everyMarked_mono ih (by simp +contextual)))
  | @ifElse mark _ _ _ _ _ _ _ isIf _ _ _ _ ihCondition ihConsequence ih =>
      exact everyMarked_node mark (by simp) rfl isIf rfl
        (everyMarked_append (everyMarked_mono ihCondition (by simp +contextual))
          (everyMarked_append (everyMarked_mono ihConsequence (by simp +contextual))
            (everyMarked_mono ih (by simp +contextual))))
  | @elseIf mark other _ _ inner ts us vs isIf _ _ isElse _ ihCondition ihConsequence ih =>
      -- The statement that the inner conditional makes has the line of that conditional.
      have inside : ∀ node ∈ [inner], node.Every (Node.Marked (mark :: (ts ++ (us ++ other :: vs)))) :=
        everyMarked_mono ih (by simp +contextual)
      obtain ⟨t, member, line, -⟩ := (inside inner (by simp)).here.mark
      have alternative : ∀ node ∈ [Node.block other.line [.expression inner.line inner]],
          node.Every (Node.Marked (mark :: (ts ++ (us ++ other :: vs)))) :=
        everyMarked_node other (by simp) rfl (.inr isElse) rfl
          (everyMarked_node t member line trivial rfl inside)
      exact everyMarked_node mark (by simp) rfl isIf rfl
        (everyMarked_append (everyMarked_mono ihCondition (by simp +contextual))
          (everyMarked_append (everyMarked_mono ihConsequence (by simp +contextual)) alternative))
  | @lastEntry colon key value ts us _ _ _ ihKey ih =>
      have both : ∀ node ∈ [key, value], node.Every (Node.Marked (ts ++ colon :: us)) :=
        everyMarked_append (everyMarked_mono ihKey (by simp +contextual))
          (everyMarked_mono ih (by simp +contextual))
      exact both
  | @entry colon comma key value entries ts us vs _ _ _ _ _ ihKey ih ihRest =>
      have both : ∀ node ∈ [key, value],
          node.Every (Node.Marked (ts ++ colon :: (us ++ comma :: vs))) :=
        everyMarked_append (everyMarked_mono ihKey (by simp +contextual))
          (everyMarked_mono ih (by simp +contextual))
      exact everyMarked_append both (everyMarked_mono ihRest (by simp +contextual))

/-! ## Sources -/

/-- The tokens of a source, the end of input included. -/
def tokensOf (source : String) : List Token :=
  match (TokenStream.ofSource source).ending with
  | .eof line => (TokenStream.ofSource source).tokens ++ [.eof line]
  | .fault .. => (TokenStream.ofSource source).tokens

/-- Every node of a program that was read has its line from a token of the source. -/
theorem marked_of_parse {source : String} {program : Node} (read : parse source = .ok program) :
    program.Every (Node.Marked (tokensOf source)) := by
  obtain ⟨line, ending, statements, rfl, spells⟩ := spellsProgram_of_parse read
  have tokens : tokensOf source = (TokenStream.ofSource source).tokens ++ [Token.eof line] := by
    unfold tokensOf
    rw [ending]
  rw [tokens]
  refine .intro ⟨?_, by simp [Node.names]⟩ (everyMarked_mono spells.marked (by simp +contextual))
  cases all : (TokenStream.ofSource source).tokens with
  | nil => exact ⟨.eof line, by simp, rfl, trivial⟩
  | cons first more => exact ⟨first, by simp, rfl, trivial⟩

/-- Tokens stand on the lines of the source. -/
theorem line_of_mem_tokensOf {source : String} {t : Token} (member : t ∈ tokensOf source) :
    1 ≤ t.line ∧ t.line ≤ 1 + source.toList.count '\n' := by
  unfold tokensOf at member
  split at member
  case h_2 => exact TokenStream.line_mem_ofSource member
  case h_1 line ending =>
    rcases List.mem_append.mp member with inside | last
    · exact TokenStream.line_mem_ofSource inside
    · rw [List.mem_singleton.mp last, TokenStream.line_eof_ofSource ending]
      simp [Token.eof]

/-- Nodes stand on the lines of the source that they were read from. -/
theorem line_of_within {source : String} {program node : Node} (read : parse source = .ok program)
    (within : node.Within program) : 1 ≤ node.line ∧ node.line ≤ 1 + source.toList.count '\n' := by
  obtain ⟨t, member, line, -⟩ := ((marked_of_parse read).within within).mark
  rw [← line]
  exact line_of_mem_tokensOf member

end Treewalk

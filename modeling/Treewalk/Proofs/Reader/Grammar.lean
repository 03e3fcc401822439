import Mathlib
import Treewalk.Number.Decimal
import Treewalk.Reader.Slot
import Treewalk.Source.Token

/-!
# The grammar

Which rows of tokens are programs, and which tree each of them stands for. `Spells phrase tokens` has
one rule for each form that a phrase may take; it knows neither the slots nor the phases of the
reader.

Expressions are graded by how strongly they hold together. Level 1 is any expression; levels 1 to 6
are those of the binary operators, level 7 is a row of prefix operators in front of an operand, and
level 8 an operand with a row of calls and indexings behind it.
-/

namespace Treewalk

/-- The binary operators of each level. -/
def binaryOperators : Nat → List String
  | 1 => ["or"]
  | 2 => ["and"]
  | 3 => ["==", "!="]
  | 4 => ["<", ">", "<=", ">="]
  | 5 => ["+", "-"]
  | 6 => ["*", "/"]
  | _ => []

/-- A token that goes on with the expression in front of it. -/
def Token.Extends (t : Token) : Prop :=
  (∃ level, ∃ operator ∈ binaryOperators level, t.spells operator) ∨ t.spells "(" ∨ t.spells "["

/-- A part of a program together with the tree that it stands for. -/
inductive Phrase where
  | expr (level : Nat) (node : Node)
  | conditional (node : Node)
  | block (node : Node)
  | statement (node : Node)
  /-- The statements of a program, or of a block between its braces. -/
  | statements (nodes : List Node)
  /-- Expressions between brackets. -/
  | items (nodes : List Node)
  /-- Keys and values between braces. -/
  | entries (entries : List (Node × Node))
  | parameters (names : List Name)

/-- The rows of tokens that spell a phrase. The line of a node is the line of the token that the rule
takes it from. -/
inductive Spells : Phrase → List Token → Prop
  -- Statement lists. Any number of semicolons stands between two statements, also none.
  | noStatements : Spells (.statements []) []
  | semicolon {mark : Token} {nodes : List Node} {ts : List Token} :
      mark.spells ";" → Spells (.statements nodes) ts → Spells (.statements nodes) (mark :: ts)
  -- The expression that ends a statement goes on as long as the next token extends it.
  | statement {node : Node} {nodes : List Node} {ts us : List Token} :
      Spells (.statement node) ts → (∀ next ∈ us.head?, ¬ next.Extends) →
      Spells (.statements nodes) us → Spells (.statements (node :: nodes)) (ts ++ us)
  -- A list ends at its brace or at the end of input, so a `return` that nothing follows in the list
  -- has one of these behind it.
  | bareResult {mark : Token} {nodes : List Node} {ts : List Token} :
      mark.spells "return" → (∀ next ∈ ts.head?, next.spells ";") →
      Spells (.statements nodes) ts →
      Spells (.statements (.result mark.line none :: nodes)) (mark :: ts)
  -- Statements.
  | binding {mark name equals : Token} {value : Node} {ts : List Token} :
      mark.spells "let" → name.kind = .name → equals.spells "=" → Spells (.expr 1 value) ts →
      Spells (.statement (.binding mark.line ⟨name.line, name.text⟩ value))
        (mark :: name :: equals :: ts)
  | result {mark : Token} {value : Node} {ts : List Token} :
      mark.spells "return" → Spells (.expr 1 value) ts →
      Spells (.statement (.result mark.line (some value))) (mark :: ts)
  | expression {first : Token} {inner : Node} {ts : List Token} :
      Spells (.expr 1 inner) (first :: ts) →
      Spells (.statement (.expression first.line inner)) (first :: ts)
  -- Operators. The left operand may be of the operator's own level, so equals associate to the left.
  | weaker {level : Nat} {node : Node} {ts : List Token} :
      Spells (.expr (level + 1) node) ts → Spells (.expr level node) ts
  | binary {level : Nat} {operator : String} {mark : Token} {left right : Node}
      {ts us : List Token} :
      operator ∈ binaryOperators level → Spells (.expr level left) ts → mark.spells operator →
      Spells (.expr (level + 1) right) us →
      Spells (.expr level (.joined mark.line left operator right)) (ts ++ mark :: us)
  | unary {operator : String} {mark : Token} {operand : Node} {ts : List Token} :
      operator ∈ ["!", "-"] → mark.spells operator → Spells (.expr 7 operand) ts →
      Spells (.expr 7 (.unary mark.line operator operand)) (mark :: ts)
  | call {opening closing : Token} {callee : Node} {arguments : List Node} {ts us : List Token} :
      Spells (.expr 8 callee) ts → opening.spells "(" → Spells (.items arguments) us →
      closing.spells ")" →
      Spells (.expr 8 (.call opening.line callee arguments)) (ts ++ opening :: (us ++ [closing]))
  | index {opening closing : Token} {subject position : Node} {ts us : List Token} :
      Spells (.expr 8 subject) ts → opening.spells "[" → Spells (.expr 1 position) us →
      closing.spells "]" →
      Spells (.expr 8 (.index opening.line subject position)) (ts ++ opening :: (us ++ [closing]))
  -- Operands.
  | number {t : Token} {value : Number} :
      t.kind = .number → Number.ofText? t.text = some value →
      Spells (.expr 8 (.number t.line value t.text)) [t]
  | text {t : Token} : t.kind = .text → Spells (.expr 8 (.text t.line t.text)) [t]
  | identifier {t : Token} : t.kind = .name → Spells (.expr 8 (.identifier t.line t.text)) [t]
  | yes {t : Token} : t.spells "true" → Spells (.expr 8 (.boolean t.line true)) [t]
  | no {t : Token} : t.spells "false" → Spells (.expr 8 (.boolean t.line false)) [t]
  | group {opening closing : Token} {node : Node} {ts : List Token} :
      opening.spells "(" → Spells (.expr 1 node) ts → closing.spells ")" →
      Spells (.expr 8 node) (opening :: (ts ++ [closing]))
  | conditional {node : Node} {ts : List Token} :
      Spells (.conditional node) ts → Spells (.expr 8 node) ts
  | function {mark opening closing : Token} {parameters : List Name} {body : Node}
      {ts us : List Token} :
      mark.spells "fn" → opening.spells "(" → Spells (.parameters parameters) ts →
      closing.spells ")" → Spells (.block body) us →
      Spells (.expr 8 (.function mark.line parameters body)) (mark :: opening :: (ts ++ closing :: us))
  | array {opening closing : Token} {items : List Node} {ts : List Token} :
      opening.spells "[" → Spells (.items items) ts → closing.spells "]" →
      Spells (.expr 8 (.array opening.line items)) (opening :: (ts ++ [closing]))
  | hash {opening closing : Token} {entries : List (Node × Node)} {ts : List Token} :
      opening.spells "\x7b" → Spells (.entries entries) ts → closing.spells "\x7d" →
      Spells (.expr 8 (.hash opening.line entries)) (opening :: (ts ++ [closing]))
  -- Conditionals. One that stands right behind `else` is the only statement of a block.
  | ifThen {mark : Token} {condition consequence : Node} {ts us : List Token} :
      mark.spells "if" → Spells (.expr 1 condition) ts → Spells (.block consequence) us →
      Spells (.conditional (.conditional mark.line condition consequence none)) (mark :: (ts ++ us))
  | ifElse {mark other : Token} {condition consequence alternative : Node}
      {ts us vs : List Token} :
      mark.spells "if" → Spells (.expr 1 condition) ts → Spells (.block consequence) us →
      other.spells "else" → Spells (.block alternative) vs →
      Spells (.conditional (.conditional mark.line condition consequence (some alternative)))
        (mark :: (ts ++ (us ++ other :: vs)))
  | elseIf {mark other : Token} {condition consequence inner : Node} {ts us vs : List Token} :
      mark.spells "if" → Spells (.expr 1 condition) ts → Spells (.block consequence) us →
      other.spells "else" → Spells (.conditional inner) vs →
      Spells (.conditional (.conditional mark.line condition consequence
        (some (.block other.line [.expression inner.line inner]))))
        (mark :: (ts ++ (us ++ other :: vs)))
  | block {opening closing : Token} {nodes : List Node} {ts : List Token} :
      opening.spells "\x7b" → Spells (.statements nodes) ts → closing.spells "\x7d" →
      Spells (.block (.block opening.line nodes)) (opening :: (ts ++ [closing]))
  -- Lists. What follows a comma may be nothing, which allows for one comma at the end.
  | noItems : Spells (.items []) []
  | lastItem {node : Node} {ts : List Token} : Spells (.expr 1 node) ts → Spells (.items [node]) ts
  | item {comma : Token} {node : Node} {nodes : List Node} {ts us : List Token} :
      Spells (.expr 1 node) ts → comma.spells "," → Spells (.items nodes) us →
      Spells (.items (node :: nodes)) (ts ++ comma :: us)
  | noEntries : Spells (.entries []) []
  | lastEntry {colon : Token} {key value : Node} {ts us : List Token} :
      Spells (.expr 1 key) ts → colon.spells ":" → Spells (.expr 1 value) us →
      Spells (.entries [(key, value)]) (ts ++ colon :: us)
  | entry {colon comma : Token} {key value : Node} {entries : List (Node × Node)}
      {ts us vs : List Token} :
      Spells (.expr 1 key) ts → colon.spells ":" → Spells (.expr 1 value) us → comma.spells "," →
      Spells (.entries entries) vs →
      Spells (.entries ((key, value) :: entries)) (ts ++ colon :: (us ++ comma :: vs))
  | noParameters : Spells (.parameters []) []
  | lastParameter {name : Token} :
      name.kind = .name → Spells (.parameters [⟨name.line, name.text⟩]) [name]
  | parameter {name comma : Token} {names : List Name} {ts : List Token} :
      name.kind = .name → comma.spells "," → Spells (.parameters names) ts →
      Spells (.parameters (⟨name.line, name.text⟩ :: names)) (name :: comma :: ts)

/-- A row of tokens, behind which the input ends on `line`, spells a program. The program stands on the
line of its first token, and an empty one where the input ends. -/
def SpellsProgram (line : Int) (tokens : List Token) (program : Node) : Prop :=
  ∃ nodes, program = .program ((tokens.head?.map Token.line).getD line) nodes ∧
    Spells (.statements nodes) tokens

end Treewalk

import Mathlib
import Treewalk.Tree.Node

/-!
# Subtrees

`Node.children` lists the trees right below a node, in the order in which they stand in the source.
Everything that is said of all parts of a tree goes through it: `Node.child_induction` proves a fact
of every tree from the same fact of its children, and `Node.Every` says that a fact holds at every
place of a tree.
-/

namespace Treewalk

namespace Node

/-- The trees right below a node. -/
def children : Node → List Node
  | .unary _ _ operand => [operand]
  | .binary _ left _ right | .logical _ left _ right => [left, right]
  | .conditional _ condition consequence none => [condition, consequence]
  | .conditional _ condition consequence (some alternative) =>
    [condition, consequence, alternative]
  | .function _ _ body => [body]
  | .call _ callee arguments => callee :: arguments
  | .array _ items => items
  | .index _ subject position => [subject, position]
  | .hash _ entries => entries.flatMap fun entry => [entry.1, entry.2]
  | .binding _ _ value => [value]
  | .result _ (some value) => [value]
  | .expression _ inner => [inner]
  | .block _ statements | .program _ statements => statements
  | _ => []

/-- Both halves of an entry are children of the hash it stands in. -/
theorem mem_children_hash (line : Int) {entries : List (Node × Node)} {entry : Node × Node}
    (member : entry ∈ entries) :
    entry.1 ∈ (Node.hash line entries).children ∧ entry.2 ∈ (Node.hash line entries).children := by
  simp only [children, List.mem_flatMap]
  exact ⟨⟨entry, member, by simp⟩, ⟨entry, member, by simp⟩⟩

/-- A child is smaller than its parent, so that going down a tree ends. -/
theorem sizeOf_child_lt {node child : Node} (member : child ∈ node.children) :
    sizeOf child < sizeOf node := by
  cases node with
  | conditional line condition consequence alternative =>
      cases alternative <;> simp [children] at member <;> rcases member with rfl | rfl | rfl <;>
        simp <;> omega
  | result line value =>
      cases value <;> simp [children] at member
      subst member
      simp
      omega
  | call line callee arguments =>
      rcases List.mem_cons.mp member with rfl | inside
      · simp
        omega
      · have below := List.sizeOf_lt_of_mem inside
        simp
        omega
  | array line items =>
      have below := List.sizeOf_lt_of_mem (show child ∈ items from member)
      simp
      omega
  | block line statements =>
      have below := List.sizeOf_lt_of_mem (show child ∈ statements from member)
      simp
      omega
  | program line statements =>
      have below := List.sizeOf_lt_of_mem (show child ∈ statements from member)
      simp
      omega
  | hash line entries =>
      obtain ⟨⟨key, value⟩, inside, half⟩ := List.mem_flatMap.mp member
      have below := List.sizeOf_lt_of_mem inside
      simp at half below
      rcases half with rfl | rfl <;> simp <;> omega
  | binary | logical | index =>
      simp only [children, List.mem_cons, List.not_mem_nil, or_false] at member
      simp only [binary.sizeOf_spec, logical.sizeOf_spec, index.sizeOf_spec]
      rcases member with rfl | rfl <;> omega
  | unary | function | binding | expression =>
      rw [List.mem_singleton.mp member]
      simp only [unary.sizeOf_spec, function.sizeOf_spec, binding.sizeOf_spec,
        expression.sizeOf_spec]
      omega
  | missing | bare | identifier | number | text | boolean => cases member

/-- Induction on trees: what passes from the children of a node to the node holds of every tree. -/
theorem child_induction {motive : Node → Prop}
    (step : ∀ node, (∀ child ∈ node.children, motive child) → motive node) (node : Node) :
    motive node :=
  step node fun child _ => child_induction step child
termination_by sizeOf node
decreasing_by exact sizeOf_child_lt ‹_›

/-- A fact that holds at every place of a tree. -/
inductive Every (fact : Node → Prop) : Node → Prop
  | intro {node : Node} : fact node → (∀ child ∈ node.children, Every fact child) → Every fact node

theorem Every.here {fact : Node → Prop} {node : Node} (every : node.Every fact) : fact node := by
  cases every with
  | intro here _ => exact here

theorem Every.child {fact : Node → Prop} {node child : Node} (every : node.Every fact)
    (member : child ∈ node.children) : child.Every fact := by
  cases every with
  | intro _ below => exact below child member

theorem Every.mono {fact other : Node → Prop} {node : Node} (every : node.Every fact)
    (implies : ∀ node, fact node → other node) : node.Every other := by
  induction every with
  | intro here _ ih => exact .intro (implies _ here) ih

/-- Whether a fact holds at every place of a tree can be computed by going down the tree. -/
instance decidableEvery {fact : Node → Prop} [DecidablePred fact] (node : Node) :
    Decidable (node.Every fact) :=
  have (child : { child // child ∈ node.children }) : Decidable (child.1.Every fact) :=
    decidableEvery child.1
  decidable_of_iff (fact node ∧ ∀ child ∈ node.children.attach, child.1.Every fact)
    ⟨fun ⟨here, below⟩ => .intro here fun child member => below ⟨child, member⟩ (List.mem_attach ..),
      fun every => ⟨every.here, fun child _ => every.child child.2⟩⟩
termination_by sizeOf node
decreasing_by exact sizeOf_child_lt child.2

/-- A fact of all trees holds at every place of each. -/
theorem every_of_forall {fact : Node → Prop} (all : ∀ node, fact node) (node : Node) :
    node.Every fact := by
  induction node using child_induction with
  | step node ih => exact .intro (all node) ih

end Node

end Treewalk

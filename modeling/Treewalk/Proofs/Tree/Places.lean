import Treewalk.Proofs.Tree.Subtree

/-!
# Places in trees

`node.Within tree` says that a node stands somewhere in a tree, the root included. What holds at every
place of a tree holds of exactly the nodes within it.
-/

namespace Treewalk.Node

/-- A node stands in a tree. -/
inductive Within (node : Node) : Node → Prop
  | root : Within node node
  | under {tree child : Node} : child ∈ tree.children → Within node child → Within node tree

theorem Within.child {node tree child : Node} (within : node.Within tree)
    (member : child ∈ node.children) : child.Within tree := by
  induction within with
  | root => exact .under member .root
  | under above _ ih => exact .under above ih

theorem Every.within {fact : Node → Prop} {node tree : Node} (every : tree.Every fact)
    (within : node.Within tree) : fact node := by
  induction within with
  | root => exact every.here
  | under member _ ih => exact ih (every.child member)

/-- What holds of all nodes within a tree holds at every place of it. -/
theorem every_of_within {fact : Node → Prop} {tree : Node}
    (all : ∀ node, node.Within tree → fact node) : tree.Every fact := by
  have every (node : Node) : node.Within tree → node.Every fact := by
    induction node using child_induction with
    | step node ih =>
        intro within
        exact .intro (all node within) fun child member => ih child member (within.child member)
  exact every tree .root

/-- The names that a node itself holds. -/
def names : Node → List Name
  | .function _ parameters _ => parameters
  | .binding _ name _ => [name]
  | _ => []

end Treewalk.Node

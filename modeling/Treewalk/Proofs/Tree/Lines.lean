import Treewalk.Proofs.Tree.Subtree
import Treewalk.Tree.Render

/-!
# Trees on other lines

`Node.mapLines` puts every node of a tree on another line and changes nothing else. Two trees are equal
apart from their lines if they become the same tree when all lines are put to zero (`unlined`).
-/

namespace Treewalk

def Name.mapLine (f : Int → Int) (name : Name) : Name := ⟨f name.line, name.text⟩

theorem Name.mapLine_id : Name.mapLine id = id := rfl

mutual

/-- A tree with every line changed. -/
def Node.mapLines (f : Int → Int) : Node → Node
  | .missing => .missing
  | .bare line => .bare (f line)
  | .identifier line name => .identifier (f line) name
  | .number line value literal => .number (f line) value literal
  | .text line value => .text (f line) value
  | .boolean line value => .boolean (f line) value
  | .unary line operator operand => .unary (f line) operator (operand.mapLines f)
  | .binary line left operator right =>
    .binary (f line) (left.mapLines f) operator (right.mapLines f)
  | .logical line left operator right =>
    .logical (f line) (left.mapLines f) operator (right.mapLines f)
  | .conditional line condition consequence none =>
    .conditional (f line) (condition.mapLines f) (consequence.mapLines f) none
  | .conditional line condition consequence (some alternative) =>
    .conditional (f line) (condition.mapLines f) (consequence.mapLines f)
      (some (alternative.mapLines f))
  | .function line parameters body =>
    .function (f line) (parameters.map (Name.mapLine f)) (body.mapLines f)
  | .call line callee arguments => .call (f line) (callee.mapLines f) (mapLinesEach f arguments)
  | .array line items => .array (f line) (mapLinesEach f items)
  | .index line subject position => .index (f line) (subject.mapLines f) (position.mapLines f)
  | .hash line entries => .hash (f line) (mapLinesEntries f entries)
  | .binding line name value => .binding (f line) (name.mapLine f) (value.mapLines f)
  | .result line none => .result (f line) none
  | .result line (some value) => .result (f line) (some (value.mapLines f))
  | .expression line inner => .expression (f line) (inner.mapLines f)
  | .block line statements => .block (f line) (mapLinesEach f statements)
  | .program line statements => .program (f line) (mapLinesEach f statements)

/-- Each tree of a row with every line changed. -/
def mapLinesEach (f : Int → Int) : List Node → List Node
  | [] => []
  | node :: more => node.mapLines f :: mapLinesEach f more

/-- Each entry of a hash literal with every line changed. -/
def mapLinesEntries (f : Int → Int) : List (Node × Node) → List (Node × Node)
  | [] => []
  | (key, value) :: more => (key.mapLines f, value.mapLines f) :: mapLinesEntries f more

end

/-- A tree without its lines. -/
def Node.unlined (node : Node) : Node := node.mapLines fun _ => 0

theorem Node.unlined_eq : Node.unlined = Node.mapLines fun _ => 0 := rfl

variable {f : Int → Int}

@[simp]
theorem mapLinesEach_eq_map (nodes : List Node) :
    mapLinesEach f nodes = nodes.map (Node.mapLines f) := by
  induction nodes with
  | nil => rfl
  | cons node more ih => rw [mapLinesEach, ih, List.map_cons]

@[simp]
theorem mapLinesEntries_eq_map (entries : List (Node × Node)) :
    mapLinesEntries f entries =
      entries.map fun entry => (entry.1.mapLines f, entry.2.mapLines f) := by
  induction entries with
  | nil => rfl
  | cons entry more ih => rw [mapLinesEntries, ih, List.map_cons]

namespace Node

theorem line_mapLines (zero : f 0 = 0) (node : Node) : (node.mapLines f).line = f node.line := by
  cases node with
  | missing => exact zero.symm
  | conditional line condition consequence alternative => cases alternative <;> rfl
  | result line value => cases value <;> rfl
  | _ => rfl

theorem mapLines_id (node : Node) : node.mapLines id = node := by
  have row (nodes : List Node) (each : ∀ node ∈ nodes, node.mapLines id = node) :
      nodes.map (mapLines id) = nodes :=
    (List.map_congr_left (g := id) each).trans (List.map_id nodes)
  induction node using child_induction with
  | step node ih =>
    cases node with
    | conditional line condition consequence alternative =>
        cases alternative <;> simp_all [mapLines, children]
    | result line value => cases value <;> simp_all [mapLines, children]
    | hash line entries =>
        have halves : ∀ entry ∈ entries,
            (entry.1.mapLines id, entry.2.mapLines id) = id entry := by
          intro entry member
          have below := mem_children_hash line member
          rw [ih _ below.1, ih _ below.2]
          rfl
        rw [mapLines, mapLinesEntries_eq_map, List.map_congr_left halves, List.map_id]
        rfl
    | call line callee arguments =>
        rw [mapLines, mapLinesEach_eq_map, ih callee (by simp [children]),
          row arguments fun node member => ih node (by simp [children, member])]
        rfl
    | array line nodes | block line nodes | program line nodes =>
        rw [mapLines, mapLinesEach_eq_map, row nodes ih]
        rfl
    | _ => simp_all [mapLines, children, Name.mapLine_id]

/-- Only a bare node is written with its line. -/
def Lineless : Node → Prop
  | .bare _ => False
  | _ => True

theorem renderEach_eq_map (nodes : List Node) : renderEach nodes = nodes.map render := by
  induction nodes with
  | nil => rfl
  | cons node more ih => rw [renderEach, ih, List.map_cons]

theorem renderEntries_eq_map (entries : List (Node × Node)) :
    renderEntries entries = entries.map fun entry => entry.1.render ++ ": " ++ entry.2.render := by
  induction entries with
  | nil => rfl
  | cons entry more ih => rw [renderEntries, ih, List.map_cons]

theorem renderParameters_mapLine (parameters : List Name) :
    renderParameters (parameters.map (Name.mapLine f)) = renderParameters parameters := by
  simp [renderParameters, Name.mapLine, Function.comp_def]

theorem render_mapLines {node : Node} (every : node.Every Lineless) :
    (node.mapLines f).render = node.render := by
  induction node using child_induction with
  | step node ih =>
    have below : ∀ child ∈ node.children, (child.mapLines f).render = child.render :=
      fun child member => ih child member (every.child member)
    have row (nodes : List Node) (inside : ∀ node ∈ nodes, (node.mapLines f).render = node.render) :
        renderEach (nodes.map (mapLines f)) = renderEach nodes := by
      rw [renderEach_eq_map, renderEach_eq_map, List.map_map]
      exact List.map_congr_left inside
    cases node with
    | bare => exact every.here.elim
    | conditional line condition consequence alternative =>
        cases alternative <;> simp_all [mapLines, render, children]
    | result line value => cases value <;> simp_all [mapLines, render, children]
    | hash line entries =>
        have halves : ∀ entry ∈ entries, (entry.1.mapLines f).render ++ ": " ++
            (entry.2.mapLines f).render = entry.1.render ++ ": " ++ entry.2.render := by
          intro entry member
          have inside := mem_children_hash line member
          rw [below _ inside.1, below _ inside.2]
        rw [mapLines, mapLinesEntries_eq_map, render, render, renderEntries_eq_map,
          renderEntries_eq_map, List.map_map]
        exact congrArg (braced ∘ commaSeparated) (List.map_congr_left halves)
    | call line callee arguments =>
        rw [mapLines, mapLinesEach_eq_map, render, render, below callee (by simp [children]),
          row arguments fun node member => below node (by simp [children, member])]
    | array line nodes | block line nodes | program line nodes =>
        rw [mapLines, mapLinesEach_eq_map, render, render, row nodes below]
    | _ => simp_all [mapLines, render, children, Name.mapLine, renderParameters_mapLine]

end Node

end Treewalk

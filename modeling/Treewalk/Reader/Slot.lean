import Treewalk.Tree.Node

/-!
# Trees under construction

While a program is read, the part of its tree that encloses the current token is a tree with one open
place. A *slot* is such a tree, seen from the open place outwards. What may be put into the place is
told by the type of the slot, so a slot and a piece that fits it always make a larger piece:

* `ExprSlot` waits for an expression;
* `IfSlot` waits for a conditional, which after `else` is more than an operand of an expression;
* `BlockSlot` waits for a block;
* `ListSlot` is a list of statements that may still grow.
-/

namespace Treewalk

mutual

/-- A tree that lacks an expression. -/
inductive ExprSlot where
  | statement (line : Int) (list : ListSlot)
  | binding (line : Int) (name : Name) (list : ListSlot)
  | result (line : Int) (list : ListSlot)
  | unary (line : Int) (operator : String) (outer : ExprSlot)
  | binary (line : Int) (left : Node) (operator : String) (outer : ExprSlot)
  | group (outer : ExprSlot)
  | argument (line : Int) (callee : Node) (before : List Node) (outer : ExprSlot)
  | item (line : Int) (before : List Node) (outer : ExprSlot)
  | entryKey (line : Int) (before : List (Node × Node)) (outer : ExprSlot)
  | entryValue (line : Int) (before : List (Node × Node)) (key : Node) (outer : ExprSlot)
  | position (line : Int) (subject : Node) (outer : ExprSlot)
  | condition (line : Int) (outer : IfSlot)

/-- A tree that lacks a conditional. -/
inductive IfSlot where
  | operand (outer : ExprSlot)
  | elseIf (line : Int) (condition consequence : Node) (elseLine : Int) (outer : IfSlot)

/-- A tree that lacks a block. -/
inductive BlockSlot where
  | thenBlock (line : Int) (condition : Node) (outer : IfSlot)
  | elseBlock (line : Int) (condition consequence : Node) (outer : IfSlot)
  | body (line : Int) (parameters : List Name) (outer : ExprSlot)

/-- A tree with a list of statements that may grow. -/
inductive ListSlot where
  | program (line : Int) (before : List Node)
  | block (line : Int) (before : List Node) (outer : BlockSlot)

end

/-- Add a statement at the end of the list. -/
def ListSlot.add (statement : Node) : ListSlot → ListSlot
  | .program line before => .program line (before ++ [statement])
  | .block line before outer => .block line (before ++ [statement]) outer

/-- Put a conditional in its place. A conditional after `else` makes a block of its own, which
completes the conditional around it; the result is the outermost operand so completed. -/
def IfSlot.fill : IfSlot → Node → Node × ExprSlot
  | .operand outer, node => (node, outer)
  | .elseIf line condition consequence elseLine outer, node =>
    outer.fill (.conditional line condition consequence
      (some (.block elseLine [.expression node.line node])))

/-! ## Binding strength -/

/-- How strongly a unary operator binds. -/
def unaryLevel : Nat := 7

/-- How strongly an operator binds what stands before it; 0 for what is no such operator. -/
def operatorLevel (operator : String) : Nat :=
  match operator with
  | "or" => 1
  | "and" => 2
  | "==" | "!=" => 3
  | "<" | ">" | "<=" | ">=" => 4
  | "+" | "-" => 5
  | "*" | "/" => 6
  | "(" => 8
  | "[" => 9
  | _ => 0

/-- How strongly the operator in front of the open place binds it. An operator behind the place takes
what stands in it only if it binds more strongly. -/
def ExprSlot.level : ExprSlot → Nat
  | .unary .. => unaryLevel
  | .binary _ _ operator _ => operatorLevel operator
  | _ => 0

/-- An operator between two operands; the two that decide by their left operand are nodes of their
own. -/
def Node.joined (line : Int) (left : Node) (operator : String) (right : Node) : Node :=
  if operator = "and" ∨ operator = "or" then .logical line left operator right
  else .binary line left operator right

end Treewalk

import Treewalk.Number.Basic

/-!
# Syntax trees

A program is a tree of nodes, each with the line of the token that identifies it. One type holds
expressions and statements, because a tree may be put together by hand with any node in any place: the
evaluator gives every tree a meaning. Such a tree may also hold a `bare` node, which stands for
nothing, and may lack a node altogether.
-/

namespace Treewalk

/-- A name with the line it stands on. -/
structure Name where
  line : Int
  text : String
  deriving DecidableEq

/-- A syntax tree. -/
inductive Node where
  | missing
  | bare (line : Int)
  | identifier (line : Int) (name : String)
  | number (line : Int) (value : Number) (literal : String)
  | text (line : Int) (value : String)
  | boolean (line : Int) (value : Bool)
  | unary (line : Int) (operator : String) (operand : Node)
  | binary (line : Int) (left : Node) (operator : String) (right : Node)
  | logical (line : Int) (left : Node) (operator : String) (right : Node)
  | conditional (line : Int) (condition consequence : Node) (alternative : Option Node)
  | function (line : Int) (parameters : List Name) (body : Node)
  | call (line : Int) (callee : Node) (arguments : List Node)
  | array (line : Int) (items : List Node)
  | index (line : Int) (subject position : Node)
  | hash (line : Int) (entries : List (Node × Node))
  | binding (line : Int) (name : Name) (value : Node)
  | result (line : Int) (value : Option Node)
  | expression (line : Int) (inner : Node)
  | block (line : Int) (statements : List Node)
  | program (line : Int) (statements : List Node)

/-- The line of a node; no line counts as line 0. -/
def Node.line : Node → Int
  | .missing => 0
  | .bare line
  | .identifier line _
  | .number line _ _
  | .text line _
  | .boolean line _
  | .unary line _ _
  | .binary line _ _ _
  | .logical line _ _ _
  | .conditional line _ _ _
  | .function line _ _
  | .call line _ _
  | .array line _
  | .index line _ _
  | .hash line _
  | .binding line _ _
  | .result line _
  | .expression line _
  | .block line _
  | .program line _ => line

/-- The statements of a statement list. -/
def Node.statements : Node → List Node
  | .block _ statements | .program _ statements => statements
  | _ => []

end Treewalk

import Treewalk.Value.Kind

/-!
# Faults

What can go wrong while a program runs. A fault is the cause alone: the line belongs to the error
value that carries it.
-/

namespace Treewalk

/-- The cause of an error of the running program. -/
inductive Fault where
  | notFound (name : String)
  | unknownUnary (operator : String) (operand : Kind)
  | unknownBinary (left : Kind) (operator : String) (right : Kind)
  | mismatch (left : Kind) (operator : String) (right : Kind)
  | notAFunction (callee : Kind)
  | arity (expected got : Nat)
  | unusableKey (key : Kind)
  | positionKind (position : Kind)
  | notIndexable (subject : Kind)
  | noLength (argument : Kind)
  | notAnArray (builtin : Builtin) (argument : Kind)
  | nothingToEvaluate (what : String)
  /-- A cause that the program did not find itself. -/
  | reported (text : String)
  deriving DecidableEq

/-- An operator between two kinds. -/
def Fault.operation (left : Kind) (operator : String) (right : Kind) : String :=
  left.name ++ " " ++ operator ++ " " ++ right.name

/-- Which argument of a built-in function has to be an array. -/
def Builtin.arrayArgument : Builtin → String
  | .push => "first argument"
  | _ => "argument"

/-- The cause in words. -/
def Fault.message : Fault → String
  | .notFound name => "identifier not found: " ++ name
  | .unknownUnary operator operand => "unknown operator: " ++ operator ++ operand.name
  | .unknownBinary left operator right => "unknown operator: " ++ operation left operator right
  | .mismatch left operator right => "type mismatch: " ++ operation left operator right
  | .notAFunction callee => "not a function: " ++ callee.name
  | .arity expected got =>
    "wrong number of arguments. expected=" ++ toString expected ++ ", got=" ++ toString got
  | .unusableKey key => "unusable as hash key: " ++ key.name
  | .positionKind position => "array index must be NUMBER, got=" ++ position.name
  | .notIndexable subject => "index operator not supported: " ++ subject.name
  | .noLength argument =>
    "argument to `" ++ Builtin.len.name ++ "` not supported. got=" ++ argument.name
  | .notAnArray builtin argument =>
    builtin.arrayArgument ++ " to `" ++ builtin.name ++ "` must be ARRAY, got=" ++ argument.name
  | .nothingToEvaluate what => "cannot evaluate node: " ++ what
  | .reported text => text

/-- The words of an error on a line. -/
def Fault.messageOn (line : Int) (fault : Fault) : String :=
  "on line " ++ toString line ++ ": " ++ fault.message

end Treewalk

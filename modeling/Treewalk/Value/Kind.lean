/-!
# Kinds of values
-/

namespace Treewalk

/-- What a value is, as messages name it. -/
inductive Kind where
  | null
  | number
  | boolean
  | text
  | array
  | hash
  | result
  | function
  | builtin
  | error
  deriving DecidableEq

/-- The name of a kind. -/
def Kind.name : Kind → String
  | .null => "NULL"
  | .number => "NUMBER"
  | .boolean => "BOOLEAN"
  | .text => "STRING"
  | .array => "ARRAY"
  | .hash => "HASH"
  | .result => "RETURN"
  | .function => "FUNCTION"
  | .builtin => "BUILTIN"
  | .error => "ERROR"

/-- The functions that every program can call. -/
inductive Builtin where
  | len
  | first
  | last
  | rest
  | push
  | puts
  deriving DecidableEq

namespace Builtin

/-- All built-in functions. -/
def all : List Builtin := [.len, .first, .last, .rest, .push, .puts]

/-- The name that a built-in function is called by. -/
def name : Builtin → String
  | .len => "len"
  | .first => "first"
  | .last => "last"
  | .rest => "rest"
  | .push => "push"
  | .puts => "puts"

/-- The built-in function of a name. -/
def find? (name : String) : Option Builtin :=
  all.find? fun b => b.name == name

end Builtin

end Treewalk

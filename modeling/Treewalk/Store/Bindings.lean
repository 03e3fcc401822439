import Treewalk.Value.Basic

/-!
# Bindings

The names that a scope binds, in the order in which they were first bound.
-/

namespace Treewalk

/-- Names with their values; no name occurs twice. -/
abbrev Bindings := List (String × Value)

namespace Bindings

/-- Bind a name. A name that is bound already keeps its place. -/
def set (name : String) (value : Value) : Bindings → Bindings
  | [] => [(name, value)]
  | (n, v) :: more => if n = name then (n, value) :: more else (n, v) :: set name value more

/-- The value of a name. -/
def find? (bindings : Bindings) (name : String) : Option Value :=
  List.lookup name bindings

/-- The names, in the order in which they were first bound. -/
def names (bindings : Bindings) : List String :=
  bindings.map Prod.fst

end Bindings

end Treewalk

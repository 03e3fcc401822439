import Treewalk.Store.Basic
import Treewalk.Value.Display

/-!
# Writing scopes
-/

namespace Treewalk

/-- Bindings between braces. -/
def Bindings.display (bindings : Bindings) : String :=
  braced (commaSeparated (bindings.map fun (name, value) => name ++ ": " ++ value.display))

namespace Store

/-- A scope, with a mark if there is one around it. -/
def display (store : Store) (scope : Nat) : String :=
  let enclosed := (store.scopes[scope]?.bind Scope.outer).isSome
  (store.bindings scope).display ++ (if enclosed then " -> ..." else "")

/-- A scope and all scopes around it. -/
def debug (store : Store) (scope : Nat) : String :=
  let shown := (store.chain scope).map fun i => (store.bindings i).display
  "<Environment chain: " ++ String.intercalate " -> " shown ++ ">"

end Store

end Treewalk

import Treewalk.Number.Layout
import Treewalk.Text.Quoted
import Treewalk.Tree.Render
import Treewalk.Value.Basic

/-!
# Writing values

`Value.display` is what a program prints of a value and what a console shows of it. `Value.debug`
names the kind of every part and quotes texts.
-/

namespace Treewalk

/-- A truth value as the language spells it. -/
def displayBool (b : Bool) : String := if b then "true" else "false"

def Key.display : Key → String
  | .number x => x.text
  | .boolean b => displayBool b
  | .text s => s

mutual

/-- A value as it is printed. -/
def Value.display : Value → String
  | .null => "null"
  | .boolean b => displayBool b
  | .number x => x.text
  | .text s => s
  | .array _ items => "[" ++ commaSeparated (displayEach items) ++ "]"
  | .hash _ entries => braced (commaSeparated (displayEntries entries))
  | .function _ parameters body _ =>
    renderParameters parameters ++ " " ++ braced ("\n" ++ body.render ++ "\n")
  | .builtin _ => "builtin function"
  | .result _ value => value.display
  | .error _ line fault => "ERROR " ++ fault.messageOn line

/-- Each value of a row as it is printed. -/
def displayEach : List Value → List String
  | [] => []
  | value :: more => value.display :: displayEach more

/-- Each entry of a hash as it is printed. -/
def displayEntries : List (Key × Value) → List String
  | [] => []
  | (key, value) :: more => (key.display ++ ": " ++ value.display) :: displayEntries more

end

mutual

/-- A value with the kinds of its parts. -/
def Value.debug : Value → String
  | .null => "NULL"
  | .boolean b => if b then "Boolean(True)" else "Boolean(False)"
  | .number x => "Number(" ++ x.decimalText ++ ")"
  | .text s => "String(" ++ Text.quoted s ++ ")"
  | .array _ items => "Array([" ++ commaSeparated (debugEach items) ++ "])"
  | .hash id entries => "Hash(" ++ (Value.hash id entries).display ++ ")"
  | .function _ parameters _ _ => "<Function " ++ renderParameters parameters ++ ">"
  | .builtin b => "<Builtin " ++ b.name ++ ">"
  | .result _ value => "ReturnValue(" ++ value.debug ++ ")"
  | .error _ line fault => "Error(" ++ Text.quoted (fault.messageOn line) ++ ")"

/-- Each value of a row with the kinds of its parts. -/
def debugEach : List Value → List String
  | [] => []
  | value :: more => value.debug :: debugEach more

end

end Treewalk

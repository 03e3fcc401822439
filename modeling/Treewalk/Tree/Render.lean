import Treewalk.Tree.Node

/-!
# Rendering trees

`Node.render` writes a tree as source text on which every operator shows its grouping in parentheses.
Statements follow each other without a mark between them; a binding and a result end in a semicolon.
-/

namespace Treewalk

/-- A text in double quotes; a quote and a backslash in it are escaped and nothing else is. -/
def renderText (s : String) : String :=
  let escape (c : Char) : List Char := if c = '"' ∨ c = '\\' then ['\\', c] else [c]
  String.ofList ('"' :: s.toList.flatMap escape ++ ['"'])

/-- Pieces with a comma and a blank between them. -/
def commaSeparated (pieces : List String) : String :=
  String.intercalate ", " pieces

/-- What stands between braces. -/
def braced (inside : String) : String :=
  "\x7b" ++ inside ++ "\x7d"

/-- A parameter list. -/
def renderParameters (parameters : List Name) : String :=
  "fn(" ++ commaSeparated (parameters.map Name.text) ++ ")"

mutual

/-- A tree as source text. -/
def Node.render : Node → String
  | .missing => "None"
  | .bare line => "Node(line=" ++ toString line ++ ")"
  | .identifier _ name => name
  | .number _ _ literal => literal
  | .text _ value => renderText value
  | .boolean _ value => if value then "true" else "false"
  | .unary _ operator operand => "(" ++ operator ++ operand.render ++ ")"
  | .binary _ left operator right
  | .logical _ left operator right =>
    "(" ++ left.render ++ " " ++ operator ++ " " ++ right.render ++ ")"
  | .conditional _ condition consequence none =>
    "if " ++ condition.render ++ " " ++ braced (" " ++ consequence.render ++ " ")
  | .conditional _ condition consequence (some alternative) =>
    "if " ++ condition.render ++ " " ++ braced (" " ++ consequence.render ++ " ") ++
      " else " ++ braced (" " ++ alternative.render ++ " ")
  | .function _ parameters body =>
    renderParameters parameters ++ " " ++ braced (" " ++ body.render ++ " ")
  | .call _ callee arguments => callee.render ++ "(" ++ commaSeparated (renderEach arguments) ++ ")"
  | .array _ items => "[" ++ commaSeparated (renderEach items) ++ "]"
  | .index _ subject position => "(" ++ subject.render ++ "[" ++ position.render ++ "])"
  | .hash _ entries => braced (commaSeparated (renderEntries entries))
  | .binding _ name value => "let " ++ name.text ++ " = " ++ value.render ++ ";"
  | .result _ none => "return;"
  | .result _ (some value) => "return " ++ value.render ++ ";"
  | .expression _ inner => inner.render
  | .block _ statements
  | .program _ statements => String.join (renderEach statements)

/-- Each tree of a row as source text. -/
def renderEach : List Node → List String
  | [] => []
  | node :: more => node.render :: renderEach more

/-- Each entry of a hash literal as source text. -/
def renderEntries : List (Node × Node) → List String
  | [] => []
  | (key, value) :: more => (key.render ++ ": " ++ value.render) :: renderEntries more

end

end Treewalk

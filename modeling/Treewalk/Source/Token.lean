import Treewalk.Text.Quoted

/-!
# Tokens

A token is a word of the source with the line it starts on. Its kind may also be a label that no
source yields: a reader handed such tokens goes by their text.
-/

namespace Treewalk

/-- What a token is. -/
inductive TokenKind where
  | number
  | text
  | name
  | keyword
  | operator
  | eof
  | other (label : String)
  deriving DecidableEq

/-- A word of the source. The text of a text token is its value, without quotes and escapes. -/
structure Token where
  kind : TokenKind
  text : String
  line : Int
  deriving DecidableEq

namespace Token

/-- The words that cannot be names. -/
def keywords : List String :=
  ["let", "fn", "true", "false", "if", "else", "return", "and", "or"]

/-- The token at the end of the source. -/
def eof (line : Int) : Token := ⟨.eof, "", line⟩

/-- Whether a token is the operator or keyword `mark`. -/
def spells (t : Token) (mark : String) : Bool :=
  (t.kind == .operator || t.kind == .keyword) && t.text == mark

/-- A token as messages name it. -/
def describe (t : Token) : String :=
  match t.kind with
  | .eof => "end of input"
  | _ => Text.quoted t.text

end Token

end Treewalk

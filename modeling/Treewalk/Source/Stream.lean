import Treewalk.Source.Lexeme

/-!
# Token streams

A reader sees the tokens of a source one at a time, and an error of the source only when it comes to
it. A stream is therefore the tokens up to the end or the first error, and which of the two follows.
-/

namespace Treewalk

/-- What follows the last token. -/
inductive Ending where
  | eof (line : Int)
  | fault (line : Int) (fault : ReadFault)
  deriving DecidableEq

/-- Tokens, none of them an end of input, and what follows them. -/
structure TokenStream where
  tokens : List Token
  ending : Ending
  deriving DecidableEq

namespace TokenStream

/-- The stream of lexemes of which the first starts on `line`. Lines are counted by the newlines in
the lexemes. -/
def ofLexemes (line : Int) : List Lexeme → Option ReadFault → TokenStream
  | [], none => ⟨[], .eof line⟩
  | [], some fault => ⟨[], .fault line fault⟩
  | lexeme :: more, fault =>
    match lexeme.token line with
    | .error bad => ⟨[], .fault line bad⟩
    | .ok token? =>
      let stream := ofLexemes (line + lexeme.newlines) more fault
      { stream with tokens := token?.toList ++ stream.tokens }

/-- The stream of a source text; its first line is line 1. -/
def ofSource (source : String) : TokenStream :=
  let (lexemes, fault) := Lexeme.cutAll source.toList
  ofLexemes 1 lexemes fault

/-- The stream of a row of tokens. The first end of input in it ends it; without one it ends on the
line of its last token, or on line 1 if it is empty. -/
def ofTokens (row : List Token) : TokenStream :=
  let tokens := row.takeWhile (·.kind ≠ .eof)
  let line :=
    match (row.dropWhile (·.kind ≠ .eof)).head? with
    | some eof => eof.line
    | none => (tokens.getLast?.map Token.line).getD 1
  ⟨tokens, .eof line⟩

end TokenStream

end Treewalk

import Treewalk.Source.Token

/-!
# Errors of reading

Why a source, or a row of tokens, is no program. `ReadFault` is the cause, without a place;
`ReadError` puts it on a line.
-/

namespace Treewalk

/-- Why a source cannot be read. -/
inductive ReadFault where
  | unexpectedCharacter (c : Char)
  | unterminatedText
  | unknownEscape (c : Char)
  | unexpectedToken (got : Token)
  | expected (mark : String) (got : Token)
  | expectedName (got : Token)
  | expectedParameter (got : Token)
  | unterminatedBlock
  deriving DecidableEq

/-- The cause in words. -/
def ReadFault.message : ReadFault → String
  | .unexpectedCharacter c => "unexpected character " ++ Text.quoted (String.singleton c)
  | .unterminatedText => "unterminated string"
  | .unknownEscape c => "unknown escape sequence \\" ++ String.singleton c
  | .unexpectedToken got => "unexpected " ++ got.describe
  | .expected mark got => "expected " ++ Text.quoted mark ++ ", got " ++ got.describe
  | .expectedName got => "expected identifier after 'let', got " ++ got.describe
  | .expectedParameter got => "expected parameter name, got " ++ got.describe
  | .unterminatedBlock => "unterminated block, expected '\x7d'"

/-- Why reading stopped. Only a token that was not cut from a source can be a number token without a
numeral. -/
inductive ReadError where
  | malformed (line : Int) (fault : ReadFault)
  | notANumeral (text : String)
  deriving DecidableEq

/-- The error in words. -/
def ReadError.message : ReadError → String
  | .malformed line fault => "line " ++ toString line ++ ": " ++ fault.message
  | .notANumeral text => "could not convert string to float: " ++ Text.quoted text

end Treewalk

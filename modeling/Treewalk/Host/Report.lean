import Treewalk.Host.Settings
import Treewalk.Host.Transcript

/-!
# Reports

How a run of the program ends: with an exit code, or by breaking off.
-/

namespace Treewalk

/-- Why the program breaks off without an exit code. -/
inductive Failure where
  | setting (error : SettingError)
  | unknownLevel (name : String)
  | nullInPath
  | directory
  | undecodable
  deriving DecidableEq

/-- How the program ends, and what it has written by then. -/
structure Report where
  ending : Except Failure Nat
  transcript : Transcript

namespace Exit

/-- Everything went well. -/
def success : Nat := 0

/-- The script has an error, or there is none. -/
def error : Nat := 1

/-- The script was cut short, or the command line cannot be understood. -/
def fatal : Nat := 2

end Exit

/-- The words of a failure that has any. -/
def Failure.message? : Failure → Option String
  | .setting e => some e.message
  | .unknownLevel name => some ("Unknown level: " ++ Text.quoted name)
  | .nullInPath => some "embedded null byte"
  | .directory | .undecodable => none

end Treewalk

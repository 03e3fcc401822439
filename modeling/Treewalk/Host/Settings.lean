import Treewalk.Text.Numeral
import Treewalk.Text.Quoted
import Treewalk.Text.Uppercase

/-!
# Settings

Three environment variables configure the program: the prompt of the console, the logging level and
the recursion limit.
-/

namespace Treewalk

/-- The environment variables that are set. -/
abbrev Environment := List (String × String)

/-- Why a setting is refused. -/
inductive SettingError where
  | notAnInteger (raw : String)
  | notPositive (value : Int)
  deriving DecidableEq

namespace Settings

/-- The name of the variable with the prompt. -/
def promptName : String := "MONLOX_PROMPT"

/-- The name of the variable with the logging level. -/
def logLevelName : String := "MONLOX_LOG_LEVEL"

/-- The name of the variable with the recursion limit. -/
def recursionLimitName : String := "MONLOX_RECURSION_LIMIT"

/-- The variables that configure the program. -/
def names : List String := [promptName, logLevelName, recursionLimitName]

/-- The recursion limit of a program that is not configured. -/
def defaultRecursionLimit : Int := 10000

/-- The value of a variable that is set to more than blanks. -/
def given? (environment : Environment) (name : String) : Option String :=
  (environment.lookup name).filter fun raw => Text.trim raw ≠ ""

/-- The prompt; one that is set to nothing is empty. -/
def prompt (environment : Environment) : String :=
  (environment.lookup promptName).getD ">> "

/-- The name of the logging level, in upper case. -/
def logLevel (environment : Environment) : String :=
  match given? environment logLevelName with
  | some raw => Text.upper (Text.trim raw)
  | none => "WARNING"

/-- The recursion limit, a positive integer. -/
def recursionLimit (environment : Environment) : Except SettingError Int :=
  match given? environment recursionLimitName with
  | none => .ok defaultRecursionLimit
  | some raw =>
    match Text.integer? raw with
    | none => .error (.notAnInteger raw)
    | some value => if value ≤ 0 then .error (.notPositive value) else .ok value

end Settings

/-- The reason in words. -/
def SettingError.message : SettingError → String
  | .notAnInteger raw =>
    Settings.recursionLimitName ++ " must be an integer, got " ++ Text.quoted raw
  | .notPositive value =>
    Settings.recursionLimitName ++ " must be positive, got " ++ toString value

end Treewalk

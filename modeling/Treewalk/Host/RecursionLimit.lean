import Treewalk.Host.Settings

/-!
# The recursion limit of the process

A process has one limit on nested calls, a positive number of 31 bits. Whoever needs deeper calls demands
a limit, and each interpreter does so when it is made. The limit of the process is then raised to what is
demanded, and never lowered.
-/

namespace Treewalk.RecursionLimit

/-- The limit that a process starts with. -/
def initial : Int := 1000

/-- The least number that is too large for a limit. -/
def capacity : Int := 2147483648

/-- Why a demand is refused. -/
inductive Refusal where
  | setting (error : SettingError)
  | overflow (limit : Int)
  | notPositive (limit : Int)
  deriving DecidableEq

/-- What is done with the limit of a process. A refusal leaves the limit as it is at that moment. -/
abbrev Process := EStateM Refusal Int

/-- Set the limit. A limit that is raised is never too low for the calls that are open. -/
def set (limit : Int) : Process Unit :=
  if limit < -capacity ∨ capacity ≤ limit then throw (.overflow limit)
  else if limit < 1 then throw (.notPositive limit)
  else EStateM.set limit

/-- Raise the limit to what is needed, if it is lower. -/
def ensure (needed : Int) : Process Unit := do
  if (← get) < needed then set needed

/-- What a new interpreter asks for: its own limit, and the configured one if it has none or zero. -/
def wanted (environment : Environment) : Option Int → Except SettingError Int
  | none => Settings.recursionLimit environment
  | some limit => if limit = 0 then Settings.recursionLimit environment else .ok limit

/-- Something that needs a limit. -/
inductive Demand where
  | ensure (limit : Int)
  | interpreter (own : Option Int)
  deriving DecidableEq

/-- Meet a demand. What an interpreter wants is settled before the limit of the process is touched. -/
def Demand.serve (environment : Environment) : Demand → Process Unit
  | .ensure limit => RecursionLimit.ensure limit
  | .interpreter own =>
    match wanted environment own with
    | .ok limit => RecursionLimit.ensure limit
    | .error e => throw (.setting e)

/-- The limit that a demand leaves, whether it was met or refused. -/
def Demand.leave (environment : Environment) (current : Int) (demand : Demand) : Int :=
  match demand.serve environment current with
  | .ok _ limit => limit
  | .error _ limit => limit

/-- The limit after demands, one after the other. -/
def after (environment : Environment) (start : Int) (demands : List Demand) : Int :=
  demands.foldl (Demand.leave environment) start

end Treewalk.RecursionLimit

import Treewalk.Host.CommandLine

/-!
# The program

Reads the command line, the environment, files and lines, and writes what the rest of the library
says.
-/

namespace Treewalk.Main

/-- Write a transcript: notes and messages about a script go to the error stream. -/
def write (transcript : Transcript) : IO Unit := do
  let output ← IO.getStdout
  let errors ← IO.getStderr
  for (channel, text) in transcript do
    match channel with
    | .console | .program => output.putStr text
    | .errors | .log => errors.putStr text
  output.flush

/-- The settings that are given in the environment. -/
def environment : IO Environment := do
  let mut given : Environment := []
  for name in Settings.names do
    if let some value ← IO.getEnv name then
      given := given ++ [(name, value)]
  return given

/-- What a path leads to. -/
def pathEntry (path : String) : IO PathEntry := do
  try
    return .file (← IO.FS.readBinFile path)
  catch
    | .noFileOrDirectory .. => return .missing
    | .inappropriateType .. => return .directory
    | e => throw e

/-- Ask for lines and take them until there are no more or one ends the session. -/
partial def converse (notes : Bool) (console : Console) : IO Unit := do
  write console.ask
  let line ← (← IO.getStdin).getLine
  if line.isEmpty then write Console.farewell
  else
    let (next, written) := console.enter line
    write (CommandLine.keepNotes notes written)
    if let some next := next then converse notes next

/-- End the program as a report says. -/
def conclude (report : Report) : IO UInt32 := do
  write report.transcript
  match report.ending with
  | .ok code => return UInt32.ofNat code
  | .error failure =>
    if let some message := failure.message? then (← IO.getStderr).putStrLn message
    return UInt32.ofNat Exit.error

/-- Carry a command line out. -/
def run (arguments : List String) : IO UInt32 := do
  let environment ← environment
  match CommandLine.plan environment arguments with
  | .finished report => conclude report
  | .start notes before task =>
    write (CommandLine.keepNotes notes before)
    match task with
    | .script path =>
      let report := Script.run environment path (← pathEntry path)
      conclude { report with transcript := CommandLine.keepNotes notes report.transcript }
    | .console =>
      write Console.banner
      converse notes (Console.new (Settings.prompt environment))
      return UInt32.ofNat Exit.success

end Treewalk.Main

def main (arguments : List String) : IO UInt32 :=
  Treewalk.Main.run arguments

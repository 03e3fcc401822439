import Treewalk.Host.Console
import Treewalk.Host.Options
import Treewalk.Host.RecursionLimit
import Treewalk.Host.Script

/-!
# The command line

`CommandLine.plan` decides what a command line leads to, and `CommandLine.run` carries it out over
given input and files. With a script it is run; without one there is a console.
-/

namespace Treewalk

namespace CommandLine

/-- How the program is called. -/
def usage : String := "usage: monlox [-h] [--log-level LOG_LEVEL] [--version] [script]\n"

/-- The text of the help option. -/
def help : String :=
  usage ++ "\nMonlox interpreter\n" ++
  "\npositional arguments:\n" ++
  "  script                script file to run; omit for a REPL\n" ++
  "\noptions:\n" ++
  "  -h, --help            show this help message and exit\n" ++
  "  --log-level LOG_LEVEL\n" ++
  "                        logging level (default: $MONLOX_LOG_LEVEL or WARNING)\n" ++
  "  --version             show program's version number and exit\n"

/-- The logging levels by name, and whether notes are written at a level. -/
def levels : List (String × Bool) :=
  [("CRITICAL", false), ("FATAL", false), ("ERROR", false), ("WARN", false), ("WARNING", false),
   ("INFO", false), ("DEBUG", true), ("NOTSET", true)]

/-- A command line that cannot be carried out. -/
def refuse (reason : String) : Report :=
  ⟨.ok Exit.fatal, [(.errors, usage), (.errors, "monlox: error: " ++ reason ++ "\n")]⟩

/-- What is left to do. -/
inductive Task where
  | script (path : String)
  | console
  deriving DecidableEq

/-- What a command line leads to: an end at once, or a task, with whether notes are written and what
is written before. -/
inductive Plan where
  | finished (report : Report)
  | start (notes : Bool) (before : Transcript) (task : Task)

/-- The name of the logging level that is asked for; an empty one does not count. -/
def levelName (environment : Environment) (given : Option String) : String :=
  match given.filter (· ≠ "") with
  | some name => Text.upper name
  | none => Text.upper (Settings.logLevel environment)

/-- A note if the limit of the process is raised. -/
def noteLimit (wanted : Int) : Transcript :=
  if RecursionLimit.initial < wanted then
    Transcript.note "monlox.interpreter" ("raising recursion limit to " ++ toString wanted)
  else []

/-- Decide what a command line leads to. -/
def plan (environment : Environment) (arguments : List String) : Plan :=
  match Request.ofArguments arguments with
  | .error e => .finished (refuse e.message)
  | .ok .help => .finished ⟨.ok Exit.success, [(.console, help)]⟩
  | .ok .version => .finished ⟨.ok Exit.success, Transcript.line .console ("monlox " ++ version)⟩
  | .ok (.run logLevel script) =>
    let level := levelName environment logLevel
    match levels.lookup level with
    | none => .finished ⟨.error (.unknownLevel level), []⟩
    | some notes =>
      match Settings.recursionLimit environment with
      | .error e => .finished (refuse e.message)
      | .ok limit =>
        .start notes (noteLimit limit)
          (match script.filter (· ≠ "") with
            | some path => .script path
            | none => .console)

/-- Leave the notes out unless they are written. -/
def keepNotes (notes : Bool) (transcript : Transcript) : Transcript :=
  transcript.filter fun piece => notes || piece.1 ≠ .log

/-- Carry a command line out, over all input there is and the files that paths lead to. -/
def run (environment : Environment) (arguments : List String) (input : String)
    (files : String → PathEntry) : Report :=
  match plan environment arguments with
  | .finished report => report
  | .start notes before task =>
    let report : Report :=
      match task with
      | .script path => Script.run environment path (files path)
      | .console => Console.run environment none input
    { report with transcript := keepNotes notes (before ++ report.transcript) }

end CommandLine

end Treewalk

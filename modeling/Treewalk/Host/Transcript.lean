import Treewalk.Session
import Treewalk.Value.Display

/-!
# Transcripts

What a run writes, in order, with the channel that each piece goes to. Which channels share a stream
is up to whoever shows the transcript.
-/

namespace Treewalk

/-- Where a piece of text goes. -/
inductive Channel where
  /-- Prompts, results and messages of the console, and the result of a script. -/
  | console
  /-- What the running program prints. -/
  | program
  /-- Messages about a script. -/
  | errors
  /-- Notes on what the interpreter is doing. -/
  | log
  deriving DecidableEq

/-- Pieces of text with their channels, in the order in which they are written. -/
abbrev Transcript := List (Channel × String)

namespace Transcript

/-- What goes to the given channels. -/
def on (transcript : Transcript) (channels : List Channel) : String :=
  String.join ((transcript.filter fun piece => piece.1 ∈ channels).map Prod.snd)

/-- A line. -/
def line (channel : Channel) (text : String) : Transcript :=
  [(channel, text ++ "\n")]

/-- A note of a part of the interpreter. -/
def note (part text : String) : Transcript :=
  line .log ("DEBUG " ++ part ++ ": " ++ text)

end Transcript

/-- What is said when calls are nested too deeply. -/
def Cut.message : Cut → String
  | .tooDeep => "Fatal: maximum recursion depth exceeded"

namespace Session

/-- Run a source, with notes on it and what it prints. -/
def narrate (session : Session) (source : String) : Outcome × Session × Transcript :=
  match parse source with
  | .error e => (.unreadable e, session, [])
  | .ok program =>
    let count := toString program.statements.length ++ " statements"
    let (outcome, session) := session.evalNode callDepth program
    (outcome, session,
      Transcript.note "monlox.reader.parser" ("parsed program with " ++ count) ++
      Transcript.note "monlox.interpreter" ("evaluating " ++ count) ++
      [(.program, session.store.output)])

end Session

end Treewalk

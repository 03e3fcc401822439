import Treewalk.Host.Report
import Treewalk.Text.Blank

/-!
# The console

The console reads lines and runs them in one session. An entry is gathered from as many lines as it
takes until its brackets balance, so that a function can be typed over several lines. `Console.enter`
is the step for a line, and `Console.run` the console over all of its input.
-/

namespace Treewalk

/-- What a token adds to the count of open brackets. -/
def Token.weight (t : Token) : Int :=
  if t.kind ≠ .operator then 0
  else if t.text ∈ ["(", "[", "\x7b"] then 1
  else if t.text ∈ [")", "]", "\x7d"] then -1
  else 0

/-- How many brackets a row of tokens leaves open, less those it closes too many. -/
def openCount (tokens : List Token) : Int :=
  (tokens.map Token.weight).foldr (· + ·) 0

/-- How many brackets a source leaves open. A source with an error in it counts as balanced, so that it
is run and the error shows. -/
def openBrackets (source : String) : Int :=
  let stream := TokenStream.ofSource source
  match stream.ending with
  | .eof _ => openCount stream.tokens
  | .fault .. => 0

/-- The version of the program. -/
def version : String := "0.1.0"

/-- A console. The lines of an entry that is not complete are `pending`. -/
structure Console where
  session : Session
  prompt : String
  pending : String

namespace Console

/-- A console at its start. -/
def new (prompt : String) : Console :=
  { session := .new, prompt, pending := "" }

/-- What a console writes before anything else. -/
def banner : Transcript :=
  Transcript.line .console ("Monlox REPL v" ++ version) ++
    Transcript.line .console "Type 'exit' or press Ctrl+D to quit."

/-- What a console writes when its input ends. -/
def farewell : Transcript :=
  Transcript.line .console "\nExiting."

/-- What a console writes to ask for a line. -/
def ask (console : Console) : Transcript :=
  [(.console, if console.pending = "" then console.prompt else "... ")]

/-- What a console writes of an outcome; null is not worth a line. -/
def report : Outcome → Transcript
  | .value .null => []
  | .value value => Transcript.line .console value.display
  | .unreadable e => Transcript.line .console ("SyntaxError: " ++ e.message)
  | .cut cut => Transcript.line .console cut.message

/-- What becomes of a line. -/
inductive Reply where
  /-- There is nothing on it. -/
  | skip
  /-- It ends the session. -/
  | leave
  /-- With it the entry still has open brackets. -/
  | wait (pending : String)
  /-- It completes the entry, which is to be run. -/
  | run (source : String)

/-- What becomes of a line. Only at the start of an entry a line may be blank or end the session. -/
def reply (console : Console) (line : String) : Reply :=
  if console.pending = "" ∧ Text.trim line = "" then .skip
  else if console.pending = "" ∧ Text.trim line = "exit" then .leave
  else if 0 < openBrackets (console.pending ++ line) then .wait (console.pending ++ line)
  else .run (console.pending ++ line)

/-- Take a line: the console after it, if it goes on, and what it writes. -/
def enter (console : Console) (line : String) : Option Console × Transcript :=
  match console.reply line with
  | .skip => (some console, [])
  | .leave => (none, [])
  | .wait pending => (some { console with pending }, [])
  | .run source =>
    let (outcome, session, written) := console.session.narrate source
    (some { console with session, pending := "" }, written ++ report outcome)

/-- Ask for lines and take them until there are no more or one ends the session. -/
def readAll (console : Console) : List String → Transcript
  | [] => console.ask ++ farewell
  | line :: lines =>
    match console.enter line with
    | (none, written) => console.ask ++ written
    | (some next, written) => console.ask ++ written ++ next.readAll lines

/-- A text cut into lines, each with the newline that ends it. -/
def linesOf (text : List Char) : List (List Char) :=
  text.foldr
    (fun c lines =>
      if c = '\n' then [c] :: lines
      else
        match lines with
        | [] => [[c]]
        | line :: more => (c :: line) :: more)
    []

/-- A console over all of its input. Without a prompt of its own it has the configured one. -/
def run (environment : Environment) (prompt : Option String) (input : String) : Report :=
  match Settings.recursionLimit environment with
  | .error e => ⟨.error (.setting e), []⟩
  | .ok _ =>
    let console := new (prompt.getD (Settings.prompt environment))
    ⟨.ok Exit.success, banner ++ console.readAll ((linesOf input.toList).map String.ofList)⟩

end Console

end Treewalk

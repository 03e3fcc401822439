import Treewalk.Host.Console
import Treewalk.Proofs.Eval.Signals

/-!
# A console is a session over its entries

The console takes a line at a time and carries what it has of an entry in `pending`. `Conversation` says
what it does without that state: the input is cut into blank lines, entries and perhaps a line that ends
the session, where an entry is the shortest run of lines that leaves no bracket open. Each entry is run
once, in the session that the one before has left.

`Console.play` keeps account of what the console does line by line. By `Console.conversation_iff` the
rules allow exactly that, and by `Session.narrate_eval` running an entry in the console is running it in
a session and writing down what it printed.
-/

namespace Treewalk

namespace Console

/-! ## Lines -/

/-- Lines that an entry can start with: the first has something on it and does not end the session. -/
def Starts (lines : List String) : Prop :=
  ∃ first ∈ lines.head?, Text.trim first ≠ "" ∧ Text.trim first ≠ "exit"

theorem Starts.ne_nil {lines : List String} (starts : Starts lines) : lines ≠ [] := by
  rintro rfl
  obtain ⟨_, member, -⟩ := starts
  cases member

theorem Starts.append {lines : List String} (starts : Starts lines) (more : List String) :
    Starts (lines ++ more) := by
  obtain ⟨first, rest, rfl⟩ := List.exists_cons_of_ne_nil starts.ne_nil
  exact starts

namespace IsUnfinished

variable {lines : List String}

end IsUnfinished

/-- What a console does with its input: the sources that it runs, in order, the session that it leaves,
and what it writes. -/
structure Play where
  sources : List String
  session : Session
  written : Transcript

/-- What a console does that runs and writes something before. -/
def Play.behind (play : Play) (sources : List String) (written : Transcript) : Play :=
  { play with sources := sources ++ play.sources, written := written ++ play.written }

/-- The source that a line completes. -/
def Reply.source? : Reply → Option String
  | .run source => some source
  | _ => none

/-- What a console does with its input, line by line. -/
def play (console : Console) : List String → Play
  | [] => ⟨[], console.session, console.ask ++ farewell⟩
  | line :: lines =>
    match console.enter line with
    | (none, written) => ⟨[], console.session, console.ask ++ written⟩
    | (some next, written) =>
      (next.play lines).behind (console.reply line).source?.toList (console.ask ++ written)

section Steps

variable {session next : Session} {prompt pending line : String} {lines : List String}
  {outcome : Outcome} {written : Transcript}

end Steps

section Entries

variable {session next : Session} {prompt : String} {front more rest : List String}
  {outcome : Outcome} {written : Transcript}

end Entries

end Console

/-! ## The session of a console -/

namespace Session

end Session

end Treewalk

import Treewalk.Host.Report

/-!
# Scripts

A script is a file that is run once. Its value is written at the end, unless it is null.
-/

namespace Treewalk

/-- What a path leads to. -/
inductive PathEntry where
  | missing
  | directory
  | file (bytes : ByteArray)

namespace Script

/-- A text with every line end turned into a newline. -/
def withNewlines : List Char → List Char
  | [] => []
  | '\r' :: '\n' :: cs => '\n' :: withNewlines cs
  | '\r' :: cs => '\n' :: withNewlines cs
  | c :: cs => c :: withNewlines cs

/-- The source in a file. -/
def source? (bytes : ByteArray) : Option String :=
  (String.fromUTF8? bytes).map fun text => String.ofList (withNewlines text.toList)

/-- The end of a script with an outcome. -/
def conclude : Outcome → Report
  | .value .null => ⟨.ok Exit.success, []⟩
  | .value (.error id line fault) =>
    ⟨.ok Exit.error, Transcript.line .errors (Value.error id line fault).display⟩
  | .value value => ⟨.ok Exit.success, Transcript.line .console value.display⟩
  | .unreadable e => ⟨.ok Exit.error, Transcript.line .errors ("SyntaxError: " ++ e.message)⟩
  | .cut cut => ⟨.ok Exit.fatal, Transcript.line .errors cut.message⟩

/-- Run a source. -/
def runSource (source : String) : Report :=
  let (outcome, _, written) := Session.new.narrate source
  let report := conclude outcome
  { report with transcript := written ++ report.transcript }

/-- Run what a path leads to. -/
def runEntry (environment : Environment) (path : String) (entry : PathEntry) : Report :=
  if '\x00' ∈ path.toList then ⟨.error .nullInPath, []⟩
  else
    match entry with
    | .missing =>
      ⟨.ok Exit.error, Transcript.line .errors ("Error: file not found: " ++ path)⟩
    | .directory => ⟨.error .directory, []⟩
    | .file bytes =>
      match source? bytes, Settings.recursionLimit environment with
      | none, _ => ⟨.error .undecodable, []⟩
      | some _, .error e => ⟨.error (.setting e), []⟩
      | some source, .ok _ => runSource source

/-- Run the script at a path, with a note on it. -/
def run (environment : Environment) (path : String) (entry : PathEntry) : Report :=
  let report := runEntry environment path entry
  { report with
    transcript := Transcript.note "monlox" ("running script " ++ path) ++ report.transcript }

end Script

/-- Files by their paths from one directory. -/
abbrev Directory := List (String × ByteArray)

/-- What a path leads to from a directory. A path is a row of names between slashes, in which an empty
name and a point stand for nothing. Above the directory only directories are known. -/
def Directory.find (directory : Directory) (path : String) : PathEntry :=
  let names := (path.splitOn "/").filter fun name => name ≠ "" ∧ name ≠ "."
  let inside := String.intercalate "/" names
  if names.all (· = "..") then .directory
  else if path.startsWith "/" then .missing
  else
    match directory.lookup inside with
    | some bytes => .file bytes
    | none =>
      if directory.any fun (file, _) => file.startsWith (inside ++ "/") then .directory
      else .missing

end Treewalk

import Treewalk.Text.Digit
import Treewalk.Text.Quoted

/-!
# Command line options

A command line has three options, of which one takes a value, and at most one script. Options may be
shortened as long as they stay unique, a value may be attached with an equals sign, and behind `--`
nothing is an option. Words are classified first, all of them, and then taken from left to right.
-/

namespace Treewalk

/-- An option. -/
inductive Flag where
  | help
  | logLevel
  | version
  deriving DecidableEq

namespace Flag

/-- The spellings of the options. -/
def spellings : List (String × Flag) :=
  [("-h", .help), ("--help", .help), ("--log-level", .logLevel), ("--version", .version)]

/-- An option as messages name it. -/
def name : Flag → String
  | .help => "-h/--help"
  | .logLevel => "--log-level"
  | .version => "--version"

end Flag

/-- Why a command line cannot be understood. -/
inductive UsageError where
  | ambiguous (word : String) (candidates : List String)
  | ignoredValue (flag : Flag) (value : String)
  | missingValue (flag : Flag)
  | unrecognized (words : List String)
  deriving DecidableEq

/-- The reason in words. -/
def UsageError.message : UsageError → String
  | .ambiguous word candidates =>
    "ambiguous option: " ++ word ++ " could match " ++ String.intercalate ", " candidates
  | .ignoredValue flag value =>
    "argument " ++ flag.name ++ ": ignored explicit argument " ++ Text.quoted value
  | .missingValue flag => "argument " ++ flag.name ++ ": expected one argument"
  | .unrecognized words => "unrecognized arguments: " ++ String.intercalate " " words

/-- What a word of the command line is. -/
inductive Word where
  /-- A script or a value. -/
  | plain
  /-- The mark behind which nothing is an option. -/
  | divider
  /-- The option for help by its letter, with what follows in the word. -/
  | letters (rest : List Char)
  /-- An option, with the value that is attached to it. -/
  | option (flag : Flag) (value : Option String)
  /-- An option that there is not. -/
  | unknown
  deriving DecidableEq

namespace Word

/-- A word with an equals sign, cut there. -/
def splitValue (cs : List Char) : List Char × Option String :=
  let head := cs.takeWhile (· ≠ '=')
  match cs.dropWhile (· ≠ '=') with
  | [] => (head, none)
  | _ :: value => (head, some (String.ofList value))

/-- Words like a negative number are no options. A newline may end them. -/
def isNegativeNumber (cs : List Char) : Bool :=
  let cs := if cs.getLast? = some '\n' then cs.dropLast else cs
  let whole := (cs.drop 1).takeWhile Text.isDigit
  match (cs.drop 1).dropWhile Text.isDigit with
  | [] => whole ≠ []
  | '.' :: fraction => fraction ≠ [] && fraction.all Text.isDigit
  | _ => false

/-- The option that a word with two dashes begins to spell. -/
def long (word : String) : Except UsageError Word :=
  let (head, value) := splitValue word.toList
  let candidates := Flag.spellings.filter fun (spelling, _) => head.isPrefixOf spelling.toList
  match candidates with
  | [(_, flag)] => .ok (.option flag value)
  | [] => .ok (if ' ' ∈ word.toList then .plain else .unknown)
  | _ => .error (.ambiguous word (candidates.map Prod.fst))

/-- Tell what a word in front of the divider is. -/
def classify (word : String) : Except UsageError Word :=
  match word.toList with
  | '-' :: '-' :: _ => long word
  | ['-'] => .ok .plain
  | '-' :: 'h' :: rest => .ok (.letters rest)
  | '-' :: cs => .ok (if isNegativeNumber ('-' :: cs) || ' ' ∈ cs then .plain else .unknown)
  | _ => .ok .plain

/-- Tell what all words are. -/
def classifyAll : List String → Except UsageError (List (String × Word))
  | [] => .ok []
  | "--" :: words => .ok (("--", .divider) :: words.map fun word => (word, .plain))
  | word :: words => do
    let what ← classify word
    let more ← classifyAll words
    return (word, what) :: more

def isOption : Word → Bool
  | .letters _ | .option .. | .unknown => true
  | _ => false

end Word

/-- What a command line asks for. -/
inductive Request where
  | help
  | version
  | run (logLevel script : Option String)
  deriving DecidableEq

namespace Request

/-- The letters behind an option of one letter are further options of one letter. The first that is
none is refused with all that follows it. -/
def helpLetters : List Char → Except UsageError Request
  | [] => .ok .help
  | 'h' :: rest => helpLetters rest
  | rest => .error (.ignoredValue .help (String.ofList rest))

/-- What stands behind the letter for help in its word. An equals sign right behind the letter is
passed over, but then something has to follow it. -/
def helpWord : List Char → Except UsageError Request
  | ['='] => .error (.ignoredValue .help "")
  | '=' :: rest => helpLetters rest
  | rest => helpLetters rest

/-- The value that an attached text stands for: the divider stands for none. -/
def attached (value : String) : Option String :=
  if value = "--" then none else some value

/-- Take the words behind the last option. A script may stand before or behind the divider. -/
def takeRest (logLevel script : Option String) (extras : List String)
    (words : List (String × Word)) : Except UsageError Request :=
  let (script, left) :=
    match script, words with
    | some script, words => (some script, words)
    | none, (_, .divider) :: (word, .plain) :: left => (some word, left)
    | none, [(_, .divider)] => (none, [])
    | none, (word, .plain) :: (_, .divider) :: left => (some word, left)
    | none, (word, .plain) :: left => (some word, left)
    | none, words => (none, words)
  match extras ++ left.map Prod.fst with
  | [] => .ok (.run logLevel script)
  | extras => .error (.unrecognized extras)

/-- Take the words from left to right. -/
def take (logLevel script : Option String) (extras : List String) :
    List (String × Word) → Except UsageError Request
  | [] => takeRest logLevel script extras []
  | (word, what) :: words =>
    if ((word, what) :: words).all fun entry => !entry.2.isOption then
      takeRest logLevel script extras ((word, what) :: words)
    else
      match what with
      | .plain | .divider =>
        match script with
        | none => take logLevel (some word) extras words
        | some script => take logLevel (some script) (extras ++ [word]) words
      | .unknown => take logLevel script (extras ++ [word]) words
      | .letters rest => helpWord rest
      | .option .help none => .ok .help
      | .option .version none => .ok .version
      | .option .logLevel (some value) => take (attached value) script extras words
      | .option .logLevel none =>
        match words with
        | (value, .plain) :: words => take (some value) script extras words
        | _ => .error (.missingValue .logLevel)
      | .option flag (some value) => .error (.ignoredValue flag value)

/-- What a command line asks for. -/
def ofArguments (arguments : List String) : Except UsageError Request := do
  take none none [] (← Word.classifyAll arguments)

end Request

end Treewalk

import Treewalk.Source.Error
import Treewalk.Text.Digit

/-!
# Lexemes

A source is cut from left to right into lexemes, each the longest of its class. The first character
decides the class, so no two classes compete. `Lexeme.cut` cuts one lexeme, `Lexeme.cutAll` the whole
source up to the first place where no lexeme starts, and `Lexeme.token` makes a token of a lexeme that
is more than layout.
-/

namespace Treewalk

/-- What a lexeme is. -/
inductive LexemeClass where
  | newline
  | blank
  | comment
  | number
  | text
  | name
  | operator
  deriving DecidableEq

/-- A piece of the source, as it stands there. -/
structure Lexeme where
  kind : LexemeClass
  chars : List Char
  deriving DecidableEq

namespace Lexeme

/-! ## Character classes -/

/-- Blanks within a line. -/
def isSpace (c : Char) : Bool := c = ' ' || c = '\t' || c = '\r' || c = '\x0c'

/-- Characters that start a name: those of ASCII only. -/
def isNameStart (c : Char) : Bool := c.isAlpha || c = '_'

/-- Characters that go on with a name. -/
def isNameChar (c : Char) : Bool := c.isAlphanum || c = '_'

/-- Operators that may be followed by an equals sign to make another operator. -/
def takesEquals (c : Char) : Bool := c = '=' || c = '!' || c = '<' || c = '>'

/-- Operators of one character. -/
def isOperator (c : Char) : Bool :=
  c ∈ ['-', '+', '*', '/', '!', '<', '>', '=', ',', ';', ':', '(', ')', '\x7b', '\x7d', '[', ']']

/-! ## Cutting -/

/-- The rest of a numeral after its first digit, and what follows it. A point belongs to the numeral
only if a digit follows. -/
def cutNumber (cs : List Char) : List Char × List Char :=
  let whole := cs.takeWhile Text.isDigit
  let rest := cs.dropWhile Text.isDigit
  match rest with
  | '.' :: d :: more =>
    if Text.isDigit d then
      (whole ++ '.' :: d :: more.takeWhile Text.isDigit, more.dropWhile Text.isDigit)
    else (whole, rest)
  | _ => (whole, rest)

/-- The inside of a text after its opening quote, and what follows the closing quote. A backslash
keeps the next character from closing the text. -/
def cutText : List Char → Option (List Char × List Char)
  | [] => none
  | '"' :: cs => some ([], cs)
  | '\\' :: c :: cs => (cutText cs).map fun (inside, rest) => ('\\' :: c :: inside, rest)
  | c :: cs => (cutText cs).map fun (inside, rest) => (c :: inside, rest)

/-- The lexeme at the head of the source, and what follows it. -/
def cut (c : Char) (cs : List Char) : Except ReadFault (Lexeme × List Char) :=
  if c = '\n' then .ok (⟨.newline, [c]⟩, cs)
  else if isSpace c then .ok (⟨.blank, c :: cs.takeWhile isSpace⟩, cs.dropWhile isSpace)
  else if c = '/' ∧ cs.head? = some '/' then
    .ok (⟨.comment, c :: cs.takeWhile (· ≠ '\n')⟩, cs.dropWhile (· ≠ '\n'))
  else if Text.isDigit c then
    .ok (⟨.number, c :: (cutNumber cs).1⟩, (cutNumber cs).2)
  else if c = '"' then
    match cutText cs with
    | some (inside, rest) => .ok (⟨.text, c :: (inside ++ ['"'])⟩, rest)
    | none => .error .unterminatedText
  else if isNameStart c then .ok (⟨.name, c :: cs.takeWhile isNameChar⟩, cs.dropWhile isNameChar)
  else if takesEquals c ∧ cs.head? = some '=' then .ok (⟨.operator, [c, '=']⟩, cs.tail)
  else if isOperator c then .ok (⟨.operator, [c]⟩, cs)
  else .error (.unexpectedCharacter c)

/-! ## Nothing is lost and something is taken -/

theorem cutNumber_append (cs : List Char) : (cutNumber cs).1 ++ (cutNumber cs).2 = cs := by
  unfold cutNumber
  dsimp only
  split
  · rename_i d more h
    split
    · have whole := List.takeWhile_append_dropWhile (p := Text.isDigit) (l := cs)
      rw [h] at whole
      simp [List.takeWhile_append_dropWhile, whole]
    · exact List.takeWhile_append_dropWhile
  · exact List.takeWhile_append_dropWhile

theorem cutText_append {cs inside rest : List Char} (h : cutText cs = some (inside, rest)) :
    inside ++ '"' :: rest = cs := by
  fun_induction cutText cs generalizing inside rest with
  | case1 => cases h
  | case2 cs =>
    cases h
    rfl
  | case3 c cs ih =>
    obtain ⟨⟨body, after⟩, hb, he⟩ := Option.map_eq_some_iff.1 h
    cases he
    simp [ih hb]
  | case4 c cs _ _ ih =>
    obtain ⟨⟨body, after⟩, hb, he⟩ := Option.map_eq_some_iff.1 h
    cases he
    simp [ih hb]

/-- A cut keeps every character. -/
theorem cut_append {c : Char} {cs : List Char} {lexeme : Lexeme} {rest : List Char}
    (h : cut c cs = .ok (lexeme, rest)) : lexeme.chars ++ rest = c :: cs := by
  unfold cut at h
  split at h
  · cases h
    rfl
  split at h
  · cases h
    simp [List.takeWhile_append_dropWhile]
  split at h
  · cases h
    simp [List.takeWhile_append_dropWhile]
  split at h
  · cases h
    simp [cutNumber_append]
  split at h
  · split at h
    · rename_i hb
      cases h
      simp [← cutText_append hb]
    · cases h
  split at h
  · cases h
    simp [List.takeWhile_append_dropWhile]
  split at h
  · rename_i he
    cases h
    cases cs with
    | nil => simp at he
    | cons d ds =>
      simp only [List.head?_cons, Option.some.injEq] at he
      simp [he.2]
  split at h
  · cases h
    rfl
  · cases h

theorem cut_ne_nil {c : Char} {cs : List Char} {lexeme : Lexeme} {rest : List Char}
    (h : cut c cs = .ok (lexeme, rest)) : lexeme.chars ≠ [] := by
  unfold cut at h
  repeat' split at h
  all_goals cases h
  all_goals simp

/-- What follows a lexeme is shorter than what it was cut from. -/
theorem length_rest_lt {c : Char} {cs : List Char} {lexeme : Lexeme} {rest : List Char}
    (h : cut c cs = .ok (lexeme, rest)) : rest.length < (c :: cs).length := by
  have whole := congrArg List.length (cut_append h)
  have some := List.length_pos_iff.2 (cut_ne_nil h)
  simp only [List.length_append] at whole
  omega

/-- The lexemes of a source, and why no further one starts if some source is left. -/
def cutAll : List Char → List Lexeme × Option ReadFault
  | [] => ([], none)
  | c :: cs =>
    match h : cut c cs with
    | .error fault => ([], some fault)
    | .ok (lexeme, rest) =>
      have := length_rest_lt h
      let (more, fault) := cutAll rest
      (lexeme :: more, fault)
termination_by cs => cs.length
decreasing_by exact this

/-! ## Tokens of lexemes -/

/-- The value of the inside of a text: an escape stands for one character. -/
def decode : List Char → Except ReadFault (List Char)
  | [] => .ok []
  | '\\' :: c :: cs =>
    if c = 'n' then (decode cs).map ('\n' :: ·)
    else if c = 't' then (decode cs).map ('\t' :: ·)
    else if c = '"' ∨ c = '\\' then (decode cs).map (c :: ·)
    else .error (.unknownEscape c)
  | c :: cs => (decode cs).map (c :: ·)

/-- The newlines in a lexeme. -/
def newlines (lexeme : Lexeme) : Nat := lexeme.chars.count '\n'

/-- The token of a lexeme that starts on `line`; layout has none. -/
def token (line : Int) (lexeme : Lexeme) : Except ReadFault (Option Token) :=
  let text := String.ofList lexeme.chars
  match lexeme.kind with
  | .newline | .blank | .comment => .ok none
  | .number => .ok (some ⟨.number, text, line⟩)
  | .text =>
    (decode (lexeme.chars.drop 1).dropLast).map fun value =>
      some ⟨.text, String.ofList value, line⟩
  | .name => .ok (some ⟨if text ∈ Token.keywords then .keyword else .name, text, line⟩)
  | .operator => .ok (some ⟨.operator, text, line⟩)

end Lexeme

end Treewalk

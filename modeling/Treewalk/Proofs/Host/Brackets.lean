import Treewalk.Host.Console
import Treewalk.Proofs.Reader.Exact
import Treewalk.Proofs.Reader.Viable

/-!
# Brackets of programs

The console counts the brackets in a row of tokens and knows nothing of the grammar. `Nested` says that
every bracket of a row is closed by one of its own form, with a nested row in between. The grammar puts
brackets around nested rows only (`Spells.nested`), and a nested row opens as many as it closes, never
fewer up to any point (`Nested.openCount_eq`, `Nested.openCount_nonneg`). So the console never waits for
more of a source that can be read as it stands.
-/

namespace Treewalk

/-- The brackets, each with the one that closes it. -/
def brackets : List (String × String) := [("(", ")"), ("[", "]"), ("\x7b", "\x7d")]

/-- A token that is no bracket. -/
def Token.Bracketless (t : Token) : Prop :=
  ∀ both ∈ brackets, t.spells both.1 = false ∧ t.spells both.2 = false

/-- Rows of tokens in which every bracket is closed by its own kind, and nothing is closed that is not
open. -/
inductive Nested : List Token → Prop
  | nil : Nested []
  | other {t : Token} {ts : List Token} : t.Bracketless → Nested ts → Nested (t :: ts)
  | pair {both : String × String} {opening closing : Token} {inside ts : List Token} :
      both ∈ brackets → opening.spells both.1 → Nested inside → closing.spells both.2 → Nested ts →
      Nested (opening :: (inside ++ closing :: ts))

/-! ## Programs are nested -/

theorem Token.bracketless_of_spells {t : Token} {mark : String} (spelled : t.spells mark)
    (other : ∀ both ∈ brackets, mark ≠ both.1 ∧ mark ≠ both.2) : t.Bracketless := by
  intro both member
  have distinct := other both member
  exact ⟨spells_eq_false spelled distinct.1, spells_eq_false spelled distinct.2⟩

theorem Token.bracketless_of_kind {t : Token} (operator : t.kind ≠ .operator)
    (keyword : t.kind ≠ .keyword) : t.Bracketless := by
  intro both _
  simp [spells, operator, keyword]

/-- A binary operator is no bracket: brackets bind either more strongly or not at all. -/
theorem Token.bracketless_of_operator {t : Token} {operator : String} {level : Nat}
    (member : operator ∈ binaryOperators level) (spelled : t.spells operator) : t.Bracketless := by
  refine bracketless_of_spells spelled ?_
  have levels := mem_binaryOperators_iff.mp member
  intro both inside
  have strong : ∀ both ∈ brackets, (operatorLevel both.1 = 0 ∨ 7 ≤ operatorLevel both.1) ∧
      operatorLevel both.2 = 0 := by decide
  have apart := strong both inside
  constructor
  · rintro rfl
    omega
  · rintro rfl
    omega

namespace Nested

theorem append {ts us : List Token} (first : Nested ts) (second : Nested us) : Nested (ts ++ us) := by
  induction first with
  | nil => exact second
  | other bracketless _ ih => exact .other bracketless ih
  | pair member opens inside closes _ _ ih =>
      rw [List.cons_append, List.append_assoc, List.cons_append]
      exact .pair member opens inside closes ih

theorem single {t : Token} (bracketless : t.Bracketless) : Nested [t] := .other bracketless .nil

/-- A mark that is no bracket, in front of a nested row. -/
theorem mark {t : Token} {text : String} {ts : List Token} (spelled : t.spells text)
    (other : ∀ both ∈ brackets, text ≠ both.1 ∧ text ≠ both.2) (nested : Nested ts) :
    Nested (t :: ts) :=
  .other (Token.bracketless_of_spells spelled other) nested

/-- A name in front of a nested row. -/
theorem name {t : Token} {ts : List Token} (kind : t.kind = .name) (nested : Nested ts) :
    Nested (t :: ts) :=
  .other (Token.bracketless_of_kind (by simp [kind]) (by simp [kind])) nested

/-- Brackets around a nested row. -/
theorem around {both : String × String} {opening closing : Token} {ts : List Token}
    (member : both ∈ brackets) (opens : opening.spells both.1) (inside : Nested ts)
    (closes : closing.spells both.2) : Nested (opening :: (ts ++ [closing])) :=
  .pair member opens inside closes .nil

end Nested

/-- Whatever phrase a row of tokens spells, its brackets are nested. -/
theorem Spells.nested {phrase : Phrase} {ts : List Token} (spells : Spells phrase ts) : Nested ts := by
  have round : ("(", ")") ∈ brackets := by decide
  have square : ("[", "]") ∈ brackets := by decide
  have curly : ("\x7b", "\x7d") ∈ brackets := by decide
  induction spells with
  | noStatements | noItems | noEntries | noParameters => exact .nil
  | semicolon mark _ ih => exact .mark mark (by decide) ih
  | statement _ _ _ ih ihRest => exact ih.append ihRest
  | bareResult mark _ _ ih => exact .mark mark (by decide) ih
  | binding mark kind equals _ ih =>
      exact .mark mark (by decide) (.name kind (.mark equals (by decide) ih))
  | result mark _ ih => exact .mark mark (by decide) ih
  | expression _ ih | weaker _ ih | conditional _ ih | lastItem _ ih => exact ih
  | binary member _ mark _ ihLeft ihRight =>
      exact ihLeft.append (.other (Token.bracketless_of_operator member mark) ihRight)
  | unary member mark _ ih =>
      refine .mark mark ?_ ih
      rcases List.mem_pair.mp member with rfl | rfl <;> decide
  | call _ opens _ closes ihCallee ih => exact ihCallee.append (.around round opens ih closes)
  | index _ opens _ closes ihSubject ih => exact ihSubject.append (.around square opens ih closes)
  | number kind _ | text kind =>
      exact .single (Token.bracketless_of_kind (by simp [kind]) (by simp [kind]))
  | identifier kind | lastParameter kind => exact .name kind .nil
  | yes mark | no mark => exact .mark mark (by decide) .nil
  | group opens _ closes ih => exact .around round opens ih closes
  | array opens _ closes ih => exact .around square opens ih closes
  | hash opens _ closes ih | block opens _ closes ih => exact .around curly opens ih closes
  | function mark opens _ closes _ ihParameters ihBody =>
      exact .mark mark (by decide) (.pair round opens ihParameters closes ihBody)
  | ifThen mark _ _ ihCondition ih => exact .mark mark (by decide) (ihCondition.append ih)
  | ifElse mark _ _ other _ ihCondition ihConsequence ih
  | elseIf mark _ _ other _ ihCondition ihConsequence ih =>
      have alternative := ihConsequence.append (.mark other (by decide) ih)
      exact .mark mark (by decide) (ihCondition.append alternative)
  | item _ comma _ ih ihRest => exact ih.append (.mark comma (by decide) ihRest)
  | lastEntry _ colon _ ihKey ih => exact ihKey.append (.mark colon (by decide) ih)
  | entry _ colon _ comma _ ihKey ih ihRest =>
      have value := ih.append (.mark comma (by decide) ihRest)
      exact ihKey.append (.mark colon (by decide) value)
  | parameter kind comma _ ih => exact .name kind (.mark comma (by decide) ih)

/-! ## Counting brackets -/

@[simp]
theorem openCount_nil : openCount [] = 0 := rfl

@[simp]
theorem openCount_cons (t : Token) (ts : List Token) : openCount (t :: ts) = t.weight + openCount ts :=
  rfl

@[simp]
theorem openCount_append (ts us : List Token) : openCount (ts ++ us) = openCount ts + openCount us := by
  induction ts with
  | nil => simp
  | cons t ts ih =>
      rw [List.cons_append, openCount_cons, openCount_cons, ih]
      omega

namespace Token

/-- A bracket that a source yields is an operator. -/
theorem Lexical.kind_of_bracket {t : Token} (lexical : t.Lexical) {mark : String}
    (spelled : t.spells mark) (other : mark ∉ keywords) : t.kind = .operator ∧ t.text = mark := by
  obtain ⟨kind, rfl⟩ := spells_iff.mp spelled
  rcases kind with operator | keyword
  · exact ⟨operator, rfl⟩
  · rw [Lexical, keyword] at lexical
    exact absurd lexical other

theorem Lexical.weight_opening {t : Token} (lexical : t.Lexical) {both : String × String}
    (member : both ∈ brackets) (opens : t.spells both.1) : t.weight = 1 := by
  have listed : ∀ both ∈ brackets, both.1 ∉ keywords ∧ both.1 ∈ ["(", "[", "\x7b"] := by decide
  obtain ⟨kind, text⟩ := lexical.kind_of_bracket opens (listed both member).1
  unfold weight
  rw [if_neg (by simp [kind]), text, if_pos (listed both member).2]

theorem Lexical.weight_closing {t : Token} (lexical : t.Lexical) {both : String × String}
    (member : both ∈ brackets) (closes : t.spells both.2) : t.weight = -1 := by
  have listed : ∀ both ∈ brackets, both.2 ∉ keywords ∧ both.2 ∉ ["(", "[", "\x7b"] ∧
      both.2 ∈ [")", "]", "\x7d"] := by decide
  obtain ⟨kind, text⟩ := lexical.kind_of_bracket closes (listed both member).1
  unfold weight
  rw [if_neg (by simp [kind]), text, if_neg (listed both member).2.1, if_pos (listed both member).2.2]

theorem Bracketless.weight_eq {t : Token} (bracketless : t.Bracketless) : t.weight = 0 := by
  unfold weight
  split
  case isTrue => rfl
  case isFalse operator =>
    have spelled (mark : String) (same : t.text = mark) : t.spells mark = true :=
      spells_iff.mpr ⟨.inl (by simpa using operator), same⟩
    have other (mark : String) (member : mark ∈ brackets.map Prod.fst ++ brackets.map Prod.snd) :
        t.text ≠ mark := by
      intro same
      have both := spelled mark same
      rcases List.mem_append.mp member with first | second
      · obtain ⟨pair, inside, rfl⟩ := List.mem_map.mp first
        rw [(bracketless pair inside).1] at both
        cases both
      · obtain ⟨pair, inside, rfl⟩ := List.mem_map.mp second
        rw [(bracketless pair inside).2] at both
        cases both
    simp [other "(" (by decide), other "[" (by decide), other "\x7b" (by decide),
      other ")" (by decide), other "]" (by decide), other "\x7d" (by decide)]

end Token

namespace Nested

/-- A nested row opens as many brackets as it closes. -/
theorem openCount_eq {ts : List Token} (nested : Nested ts) (lexical : ∀ t ∈ ts, t.Lexical) :
    openCount ts = 0 := by
  induction nested with
  | nil => rfl
  | other bracketless _ ih =>
      have behind := ih fun t member => lexical t (List.mem_cons_of_mem _ member)
      rw [openCount_cons, bracketless.weight_eq, behind]
      rfl
  | @pair both opening closing inside ts member opens _ closes _ ihInside ih =>
      have first := (lexical opening (by simp)).weight_opening member opens
      have last := (lexical closing (by simp)).weight_closing member closes
      have between := ihInside fun t inside => lexical t (by simp [inside])
      have behind := ih fun t inside => lexical t (by simp [inside])
      rw [openCount_cons, openCount_append, openCount_cons, first, last, between, behind]
      rfl

/-- Up to no point a nested row closes more brackets than it opens. -/
theorem openCount_nonneg {ts front rest : List Token} (nested : Nested ts)
    (lexical : ∀ t ∈ ts, t.Lexical) (split : ts = front ++ rest) : 0 ≤ openCount front := by
  induction nested generalizing front rest with
  | nil =>
      rw [(List.append_eq_nil_iff.mp split.symm).1]
      rfl
  | @other t ts bracketless _ ih =>
      rcases List.cons_eq_append_iff.mp split with ⟨rfl, -⟩ | ⟨more, rfl, tail⟩
      · rfl
      · have later := ih (fun t member => lexical t (List.mem_cons_of_mem _ member)) tail
        rw [openCount_cons, bracketless.weight_eq]
        omega
  | @pair both opening closing inside ts member opens nested closes _ ihInside ih =>
      have first := (lexical opening (by simp)).weight_opening member opens
      have last := (lexical closing (by simp)).weight_closing member closes
      have within : ∀ t ∈ inside, t.Lexical := fun t member => lexical t (by simp [member])
      have between := nested.openCount_eq within
      rcases List.cons_eq_append_iff.mp split with ⟨rfl, -⟩ | ⟨more, rfl, tail⟩
      · rfl
      rw [openCount_cons, first]
      -- The front stops before the closing bracket or goes on behind it.
      rcases List.append_eq_append_iff.mp tail with ⟨after, rfl, closed⟩ | ⟨left, stopped, -⟩
      · rcases List.cons_eq_append_iff.mp closed with ⟨rfl, -⟩ | ⟨further, rfl, behind⟩
        · rw [openCount_append, between]
          decide
        · have later := ih (fun t member => lexical t (by simp [member])) behind
          rw [openCount_append, openCount_cons, between, last]
          omega
      · have before := ihInside within stopped
        omega

end Nested

/-! ## The console never withholds a program -/

/-- What is read as a program has all its brackets closed. -/
theorem nested_of_parse {source : String} {program : Node} (read : parse source = .ok program) :
    Nested (TokenStream.ofSource source).tokens := by
  obtain ⟨_, -, _, -, spells⟩ := spellsProgram_of_parse read
  exact spells.nested

theorem openBrackets_of_parse {source : String} {program : Node} (read : parse source = .ok program) :
    openBrackets source = 0 := by
  obtain ⟨line, ending, -⟩ := spellsProgram_of_parse read
  have lexical := fun t member => (TokenStream.lexical_ofSource source t member).1
  simp only [openBrackets, ending]
  exact (nested_of_parse read).openCount_eq lexical

/-- A source that leaves a bracket open cannot be read. -/
theorem malformed_of_openBrackets {source : String} (waiting : 0 < openBrackets source) :
    ∃ line fault, parse source = .error (.malformed line fault) := by
  cases read : parse source with
  | ok program =>
      rw [openBrackets_of_parse read] at waiting
      cases waiting
  | error e =>
      obtain ⟨line, fault, rfl⟩ := malformed_of_parse read
      exact ⟨line, fault, rfl⟩

/-- A program is never withheld. In a source that is read as a program the brackets are nested, each
with its own closing one; the source leaves none open, and up to no token it closes more than it opens.
Conversely, a source that leaves a bracket open, and so every source that the console waits for more
of, is refused. -/
theorem program_is_never_withheld (source : String) :
    (∀ program, parse source = .ok program →
      openBrackets source = 0 ∧ Nested (TokenStream.ofSource source).tokens ∧
        ∀ front rest, (TokenStream.ofSource source).tokens = front ++ rest → 0 ≤ openCount front) ∧
    (0 < openBrackets source → ∃ line fault, parse source = .error (.malformed line fault)) ∧
    (∀ (console : Console) (entered : String), console.reply entered = .wait source →
      ∃ line fault, parse source = .error (.malformed line fault)) := by
  refine ⟨?_, malformed_of_openBrackets, ?_⟩
  · intro program read
    have lexical := fun t member => (TokenStream.lexical_ofSource source t member).1
    exact ⟨openBrackets_of_parse read, nested_of_parse read,
      fun front rest split => (nested_of_parse read).openCount_nonneg lexical split⟩
  · intro console entered waits
    unfold Console.reply at waits
    split at waits
    · cases waits
    split at waits
    · cases waits
    split at waits
    case isTrue waiting =>
      cases waits
      exact malformed_of_openBrackets waiting
    case isFalse => cases waits

/-- Brackets in a text do not count, and the console waits for more of a source that opens one. -/
theorem program_is_never_withheld_text :
    (∃ program, parse "f([true], \"(\")" = .ok program) ∧ openBrackets "f([true], \"(\")" = 0 ∧
      (Console.new ">> ").reply "f([true], \"(\"" = .wait "f([true], \"(\"" ∧
      ∃ line fault, parse "f([true], \"(\"" = .error (.malformed line fault) := by
  have read : parse "f([true], \"(\")" = .ok (.program 1 [.expression 1 (.call 1 (.identifier 1 "f")
      [.array 1 [.boolean 1 true], .text 1 "("])]) := by
    cbv
  have opened : openBrackets "f([true], \"(\"" = 1 := by
    cbv
  have words : Text.trim "f([true], \"(\"" = "f([true], \"(\"" := by
    cbv
  have waits : (Console.new ">> ").reply "f([true], \"(\"" = .wait "f([true], \"(\"" := by
    simp [Console.reply, Console.new, words, opened]
  exact ⟨⟨_, read⟩, ((program_is_never_withheld _).1 _ read).1, waits,
    (program_is_never_withheld _).2.2 _ _ waits⟩

end Treewalk

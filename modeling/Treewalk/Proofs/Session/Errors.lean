import Treewalk.Proofs.Eval.Blame
import Treewalk.Proofs.Reader.Marks
import Treewalk.Proofs.Value.Refusals

/-!
# What errors tell

A program is run only after it was read, and reading leaves little that can go wrong. An error of a
session points at a node of one of its sources, of a form that can find such a fault, and so at a line of
that source (`error_lines_point_into_sources`). What it says is one of few things: there is nothing that
could not be evaluated, no operator that could not have been written, and no signal among the operands
(`errors_are_expected`).
-/

namespace Treewalk

/-! ## Where errors point -/

/-- The nodes of a program that a fault can be found at. A key that a hash literal cannot have is found at
the expression that gives it. -/
inductive Blames (program : Node) : Fault → Node → Prop
  | identifier {line : Int} {name : String} : Blames program (.notFound name) (.identifier line name)
  | unary {line : Int} {operator : String} {operand : Node} {kind : Kind} :
      Blames program (.unknownUnary operator kind) (.unary line operator operand)
  | binary {line : Int} {operator : String} {left right : Node} {kind other : Kind} :
      Blames program (.unknownBinary kind operator other) (.binary line left operator right)
  | mismatch {line : Int} {operator : String} {left right : Node} {kind other : Kind} :
      Blames program (.mismatch kind operator other) (.binary line left operator right)
  | arity {line : Int} {callee : Node} {arguments : List Node} {expected got : Nat} :
      Blames program (.arity expected got) (.call line callee arguments)
  | notAFunction {line : Int} {callee : Node} {arguments : List Node} {kind : Kind} :
      Blames program (.notAFunction kind) (.call line callee arguments)
  | noLength {line : Int} {callee : Node} {arguments : List Node} {kind : Kind} :
      Blames program (.noLength kind) (.call line callee arguments)
  | notAnArray {line : Int} {callee : Node} {arguments : List Node} {builtin : Builtin} {kind : Kind} :
      Blames program (.notAnArray builtin kind) (.call line callee arguments)
  | positionKind {line : Int} {subject position : Node} {kind : Kind} :
      Blames program (.positionKind kind) (.index line subject position)
  | notIndexable {line : Int} {subject position : Node} {kind : Kind} :
      Blames program (.notIndexable kind) (.index line subject position)
  | position {line : Int} {subject position : Node} {kind : Kind} :
      Blames program (.unusableKey kind) (.index line subject position)
  | key {line : Int} {entries : List (Node × Node)} {entry : Node × Node} {kind : Kind} :
      (Node.hash line entries).Within program → entry ∈ entries →
      Blames program (.unusableKey kind) entry.1

/-- What calls refuse: a wrong number of arguments, arguments of a built-in function, and what cannot be
called. -/
theorem CallFault.cases {callee : Value} {arguments : List Value} {fault : Fault}
    (found : CallFault callee arguments fault) :
    (∃ expected, expected ≠ arguments.length ∧ fault = .arity expected arguments.length) ∨
      Builtin.Refuses arguments fault ∨
      callee.kind ≠ .function ∧ callee.kind ≠ .builtin ∧ fault = .notAFunction callee.kind := by
  cases found with
  | arity differ => exact .inl ⟨_, Ne.symm differ, rfl⟩
  | builtin failed =>
      rcases Builtin.apply_error failed with wrongNumber | refuses
      · exact .inl wrongNumber
      · exact .inr (.inl refuses)
  | other notFunction notBuiltin => exact .inr (.inr ⟨notFunction, notBuiltin, rfl⟩)

section Raises

variable {plain : Value → Prop} {program node : Node} {line : Int} {fault : Fault}

/-- A fault points at the node that found it, or at one below it. -/
theorem exists_blames_of_raises {tokens : List Token} (marked : node.Marked tokens)
    (within : node.Within program) (raises : node.Raises plain line fault) :
    ∃ blamed, Blames program fault blamed ∧ blamed.Within program ∧ blamed.line = line := by
  cases raises with
  | missing | bare =>
      obtain ⟨t, -, -, marks⟩ := marked.mark
      exact marks.elim
  | identifier => exact ⟨_, .identifier, within, rfl⟩
  | unary _ failed =>
      obtain ⟨-, -, rfl⟩ := Operator.unary_error failed
      exact ⟨_, .unary, within, rfl⟩
  | binary _ _ failed =>
      rcases Operator.binary_error failed with ⟨-, rfl⟩ | ⟨-, rfl⟩
      · exact ⟨_, .mismatch, within, rfl⟩
      · exact ⟨_, .binary, within, rfl⟩
  | index _ _ failed =>
      rcases Operator.index_error failed with ⟨-, rfl⟩ | ⟨-, rfl⟩ | ⟨-, -, rfl⟩
      · exact ⟨_, .positionKind, within, rfl⟩
      · exact ⟨_, .position, within, rfl⟩
      · exact ⟨_, .notIndexable, within, rfl⟩
  | @key _ entries entry _ member =>
      exact ⟨entry.1, .key within member, within.child (Node.mem_children_hash _ member).1, rfl⟩
  | call _ _ found =>
      rcases found.cases with ⟨expected, -, rfl⟩ | refuses | ⟨-, -, rfl⟩
      · exact ⟨_, .arity, within, rfl⟩
      · cases refuses with
        | noLength => exact ⟨_, .noLength, within, rfl⟩
        | notAnArray => exact ⟨_, .notAnArray, within, rfl⟩
      · exact ⟨_, .notAFunction, within, rfl⟩

end Raises

/-- **Error lines point into sources.** The words of an error begin with its line. The line is that of a
node that can find such a fault, in the source that is run or in one that was run before it, and has it
from a token of that source; every node of a program that was read has its line from such a token. -/
theorem error_lines_point_into_sources :
    (∀ (steps : List (Nat × String)) (depth : Nat) (source : String) (id : Nat) (line : Int)
        (fault : Fault),
      ((Session.new.after steps).eval depth source).1 = .value (.error id line fault) →
      fault.messageOn line = "on line " ++ toString line ++ ": " ++ fault.message ∧
      ∃ origin ∈ source :: steps.map Prod.snd, ∃ program node : Node,
        parse origin = .ok program ∧ node.Within program ∧ Blames program fault node ∧
        node.line = line ∧ (∃ t ∈ tokensOf origin, t.line = line ∧ node.Marks t) ∧
        1 ≤ line ∧ line ≤ 1 + origin.toList.count '\n') ∧
    ∀ (source : String) (program : Node), parse source = .ok program →
      ∀ node : Node, node.Within program → node.Marked (tokensOf source) := by
  refine ⟨?_, fun source program read node within => (marked_of_parse read).within within⟩
  intro steps depth source id line fault given
  refine ⟨rfl, ?_⟩
  obtain ⟨origin, member, program, node, read, within, raises⟩ := Session.exists_raises_of_eval given
  obtain ⟨blamed, blames, inside, rfl⟩ :=
    exists_blames_of_raises ((marked_of_parse read).within within) within raises
  exact ⟨origin, member, program, blamed, read, inside, blames, rfl,
    ((marked_of_parse read).within inside).mark, line_of_within read inside⟩

/-- A call in the third line of one source ends with an error of the second line of another. -/
theorem error_lines_point_into_sources_call :
    ((Session.new.after [(9, "let f = fn() \x7b\n -true \x7d;")]).eval 9 "\n\nf()").1 =
        .value (.error 3 2 (.unknownUnary "-" .boolean)) ∧
      ∃ origin ∈ ["\n\nf()", "let f = fn() \x7b\n -true \x7d;"], ∃ program node : Node,
        parse origin = .ok program ∧ node.Within program ∧
        Blames program (.unknownUnary "-" .boolean) node ∧ node.line = 2 := by
  have given : ((Session.new.after [(9, "let f = fn() \x7b\n -true \x7d;")]).eval 9 "\n\nf()").1 =
      .value (.error 3 2 (.unknownUnary "-" .boolean)) := by
    cbv
  obtain ⟨-, origin, member, program, node, read, within, blames, line, -⟩ :=
    error_lines_point_into_sources.1 _ _ _ _ _ _ given
  exact ⟨given, origin, member, program, node, read, within, blames, line⟩

/-! ## What errors say -/

/-- The kinds that a fault names. -/
def Fault.kinds : Fault → List Kind
  | .unknownUnary _ kind | .notAFunction kind | .unusableKey kind | .positionKind kind
  | .notIndexable kind | .noLength kind | .notAnArray _ kind => [kind]
  | .unknownBinary left _ right | .mismatch left _ right => [left, right]
  | .notFound _ | .arity .. | .nothingToEvaluate _ | .reported _ => []

/-- The faults that a program can have that was read, if `spelled` tells the names in it. -/
inductive Fault.Expected (spelled : String → Prop) : Fault → Prop
  | notFound {name : String} : spelled name → Builtin.find? name = none → Expected spelled (.notFound name)
  | unary {kind : Kind} : kind ≠ .number → Expected spelled (.unknownUnary "-" kind)
  | binary {kind : Kind} {operator : String} : operator ∈ infixOperators → kind ≠ .number →
      (kind = .text → operator ∈ ["-", "*", "/", "<", ">", "<=", ">="]) →
      operator ∉ ["==", "!="] → Expected spelled (.unknownBinary kind operator kind)
  | mismatch {left right : Kind} {operator : String} : operator ∈ infixOperators → left ≠ right →
      Expected spelled (.mismatch left operator right)
  | arity {expected got : Nat} : expected ≠ got → Expected spelled (.arity expected got)
  | notAFunction {kind : Kind} : kind ≠ .function → kind ≠ .builtin → Expected spelled (.notAFunction kind)
  | positionKind {kind : Kind} : kind ≠ .number → Expected spelled (.positionKind kind)
  | unusableKey {kind : Kind} : kind ∈ [.null, .array, .hash, .function, .builtin] →
      Expected spelled (.unusableKey kind)
  | notIndexable {kind : Kind} : kind ≠ .array → kind ≠ .hash → Expected spelled (.notIndexable kind)
  | noLength {kind : Kind} : kind ≠ .text → kind ≠ .array → Expected spelled (.noLength kind)
  | notAnArray {builtin : Builtin} {kind : Kind} : builtin ∈ Builtin.takesArray → kind ≠ .array →
      Expected spelled (.notAnArray builtin kind)

theorem Value.Plain.kind_ne {fact : Node → Prop} {value : Value} (plain : value.Plain fact) :
    value.kind ≠ .result ∧ value.kind ≠ .error := by
  cases plain <;> simp [kind]

/-- An operator that the common kind of its operands does not have. -/
theorem Fault.Expected.of_not_mem_operators {spelled : String → Prop} {kind : Kind} {operator : String}
    (member : operator ∈ infixOperators) (lacks : operator ∉ kind.operators) :
    Fault.Expected spelled (.unknownBinary kind operator kind) := by
  refine .binary member ?_ ?_ ?_
  · rintro rfl
    have all : infixOperators ⊆ Kind.number.operators := by decide
    exact lacks (all member)
  · rintro rfl
    have split : ∀ operator ∈ infixOperators, operator ∈ Kind.text.operators ∨
        operator ∈ ["-", "*", "/", "<", ">", "<=", ">="] := by decide
    exact (split operator member).resolve_left lacks
  · intro compares
    have all : ["==", "!="] ⊆ kind.operators := by cases kind <;> decide
    exact lacks (all compares)

theorem Fault.Expected.of_not_isKey {spelled : String → Prop} {kind : Kind}
    (ordinary : kind ≠ .result ∧ kind ≠ .error) (noKey : kind.isKey = false) :
    Fault.Expected spelled (.unusableKey kind) := by
  refine .unusableKey ?_
  cases kind <;> simp_all [Kind.isKey]

/-- What a node finds when its parts give plain values is to be expected, if its operators and names were
spelled; the kinds it names are those of plain values. -/
theorem expected_of_raises {fact : Node → Prop} {tokens : List Token} {node : Node} {line : Int}
    {fault : Fault} (marked : node.Marked tokens)
    (raises : node.Raises (Value.Plain fact) line fault) :
    fault.Expected (fun name => ∃ t ∈ tokens, t.kind = .name ∧ t.text = name) ∧
      ∀ kind ∈ fault.kinds, kind ≠ .result ∧ kind ≠ .error := by
  obtain ⟨t, member, -, marks⟩ := marked.mark
  cases raises with
  | missing | bare => exact marks.elim
  | identifier noBuiltin => exact ⟨.notFound ⟨t, member, marks⟩ noBuiltin, by simp [Fault.kinds]⟩
  | unary plain failed =>
      obtain ⟨notBang, notNumber, rfl⟩ := Operator.unary_error failed
      have isMinus := (List.mem_pair.mp marks.1).resolve_left notBang
      subst isMinus
      exact ⟨.unary (notNumber rfl), by simpa [Fault.kinds] using plain.kind_ne⟩
  | binary plain other failed =>
      rcases Operator.binary_error failed with ⟨differ, rfl⟩ | ⟨lacks, rfl⟩
      · exact ⟨.mismatch marks.1 differ, by simpa [Fault.kinds] using ⟨plain.kind_ne, other.kind_ne⟩⟩
      · exact ⟨.of_not_mem_operators marks.1 lacks, by simpa [Fault.kinds] using plain.kind_ne⟩
  | index plain other failed =>
      rcases Operator.index_error failed with ⟨notNumber, rfl⟩ | ⟨noKey, rfl⟩ | ⟨notArray, notHash, rfl⟩
      · exact ⟨.positionKind notNumber, by simpa [Fault.kinds] using other.kind_ne⟩
      · exact ⟨.of_not_isKey other.kind_ne noKey, by simpa [Fault.kinds] using other.kind_ne⟩
      · exact ⟨.notIndexable notArray notHash, by simpa [Fault.kinds] using plain.kind_ne⟩
  | key _ plain noKey =>
      exact ⟨.of_not_isKey plain.kind_ne (Value.key?_eq_none_iff.mp noKey),
        by simpa [Fault.kinds] using plain.kind_ne⟩
  | call plain others found =>
      rcases found.cases with ⟨expected, differ, rfl⟩ | refuses | ⟨notFunction, notBuiltin, rfl⟩
      · exact ⟨.arity differ, by simp [Fault.kinds]⟩
      · cases refuses with
        | noLength inside notText notArray =>
            exact ⟨.noLength notText notArray, by simpa [Fault.kinds] using (others _ inside).kind_ne⟩
        | notAnArray takes inside notArray =>
            exact ⟨.notAnArray takes notArray, by simpa [Fault.kinds] using (others _ inside).kind_ne⟩
      · exact ⟨.notAFunction notFunction notBuiltin, by simpa [Fault.kinds] using plain.kind_ne⟩

theorem Fault.Expected.mono {spelled other : String → Prop} {fault : Fault}
    (expected : fault.Expected spelled) (imp : ∀ name, spelled name → other name) :
    fault.Expected other := by
  cases expected with
  | notFound isSpelled noBuiltin => exact .notFound (imp _ isSpelled) noBuiltin
  | unary notNumber => exact .unary notNumber
  | binary member notNumber ofText lacks => exact .binary member notNumber ofText lacks
  | mismatch member differ => exact .mismatch member differ
  | arity differ => exact .arity differ
  | notAFunction notFunction notBuiltin => exact .notAFunction notFunction notBuiltin
  | positionKind notNumber => exact .positionKind notNumber
  | unusableKey member => exact .unusableKey member
  | notIndexable notArray notHash => exact .notIndexable notArray notHash
  | noLength notText notArray => exact .noLength notText notArray
  | notAnArray takes notArray => exact .notAnArray takes notArray

/-- The first character of a text stays the first, whatever follows. -/
theorem head?_append {text : String} {c : Char} (first : text.toList.head? = some c) (more : String) :
    (text ++ more).toList.head? = some c := by
  rw [String.toList_append, List.head?_append, first]
  rfl

/-- What to expect is told apart from what cannot be evaluated by the first character. -/
theorem Fault.Expected.message_ne {spelled : String → Prop} {fault : Fault}
    (expected : fault.Expected spelled) (what : String) :
    fault.message ≠ "cannot evaluate node: " ++ what := by
  have unlike {c : Char} (first : fault.message.toList.head? = some c) (other : c ≠ 'c') :
      fault.message ≠ "cannot evaluate node: " ++ what := by
    intro same
    rw [same, head?_append rfl] at first
    exact other (Option.some.inj first).symm
  cases expected with
  | arity | noLength =>
      exact unlike (head?_append (head?_append (head?_append rfl _) _) _) (by decide)
  | @notAnArray builtin =>
      cases builtin <;>
        exact unlike (head?_append (head?_append (head?_append (head?_append rfl _) _) _) _) (by decide)
  | _ => exact unlike (head?_append rfl _) (by decide)

/-- A name stands in one of the sources that can be read. -/
def Session.Spelled (sources : List String) (name : String) : Prop :=
  ∃ source ∈ sources, (∃ program, parse source = .ok program) ∧
    ∃ t ∈ tokensOf source, t.kind = .name ∧ t.text = name

/-- **Errors are expected.** Whatever was run before in a session, a source that is run gives no other
errors than those of `Fault.Expected`: what was read can be evaluated, its operators are known and refuse
only kinds that lack them, and no kind that is named is that of a signal. -/
theorem errors_are_expected (steps : List (Nat × String)) (depth : Nat) (source : String) (id : Nat)
    (line : Int) (fault : Fault)
    (given : ((Session.new.after steps).eval depth source).1 = .value (.error id line fault)) :
    fault.Expected (Session.Spelled (source :: steps.map Prod.snd)) ∧
      (∀ kind ∈ fault.kinds, kind ≠ .result ∧ kind ≠ .error) ∧
      ∀ what, fault.message ≠ "cannot evaluate node: " ++ what := by
  obtain ⟨origin, member, program, node, read, within, raises⟩ := Session.exists_raises_of_eval given
  obtain ⟨expected, ordinary⟩ := expected_of_raises ((marked_of_parse read).within within) raises
  have spelled := expected.mono fun name spelled =>
    (⟨origin, member, ⟨program, read⟩, spelled⟩ : Session.Spelled (source :: steps.map Prod.snd) name)
  exact ⟨spelled, ordinary, spelled.message_ne⟩

/-- The function of an earlier source looks for a name that no source binds. -/
theorem errors_are_expected_missing :
    ((Session.new.after [(9, "let f = fn() \x7b missing \x7d;")]).eval 9 "f()").1 =
        .value (.error 2 1 (.notFound "missing")) ∧
      (Fault.notFound "missing").Expected
        (Session.Spelled ["f()", "let f = fn() \x7b missing \x7d;"]) := by
  have given : ((Session.new.after [(9, "let f = fn() \x7b missing \x7d;")]).eval 9 "f()").1 =
      .value (.error 2 1 (.notFound "missing")) := by
    cbv
  exact ⟨given, (errors_are_expected _ _ _ _ _ _ given).1⟩

end Treewalk
